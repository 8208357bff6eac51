import ScreenWatch.Proofs.Terminal.Moments

/-!
# The turns of listeners

Whatever listeners do while they are told of changes, those that were registered when the dispatch of a change began
have one turn each to hear of it, in the order of registration, and nobody else has one.  Whether a listener is called
at its turn depends on who is registered at that moment, and on nothing that happened before
(`dispatch_calls_members`): one that has been removed is passed over, but one that has been removed and registered anew
is called again (`rejoined_is_called`).

Changes are told apart by their frames: a change that is announced has a higher one than all those before it.
-/

namespace ScreenWatch

namespace Scene

variable {s u : Scene} {ds ds' : List Dispatch} {l : List Moment} {m : Moment} {name : ListenerName} {change : Change}

/-- Who has a turn to be told of `change`. -/
def turnFor? (change : Change) : Moment → Option ListenerName
  | .turn name told _ => if told = change then some name else none
  | _ => none

/-- Those who have a turn to be told of `change`, in order. -/
def turnsFor (change : Change) (l : List Moment) : List ListenerName := l.filterMap (turnFor? change)

/-- Who is called and of what it is told, in order. -/
def callsIn (l : List Moment) : List (ListenerName × Change) := l.filterMap callIn?

/-- Those who are called and told of `change`, in order. -/
def callersFor (change : Change) (calls : List (ListenerName × Change)) : List ListenerName :=
  (calls.filter fun call => call.2 = change).map Prod.fst

/-- `name` is not registered anew by any of the moments. -/
def NeverRejoins (name : ListenerName) : Scene → List Moment → Prop
  | _, [] => True
  | s, m :: rest => (name ∈ (m.pass s).members → name ∈ s.members) ∧ NeverRejoins name (m.pass s) rest

/-- The frames of the present terminal. -/
def frames (s : Scene) : Nat := (s.terminal.map Terminal.frames).getD 0

/-- Those whose turn to be told of `change` is to come. -/
def waitingFor (change : Change) (ds : List Dispatch) : List ListenerName :=
  (ds.filter fun d => d.change = change).flatMap Dispatch.waiting

private theorem filterMap_cons_toList {α β : Type} (f : α → Option β) (a : α) (l : List α) :
    (a :: l).filterMap f = (f a).toList ++ l.filterMap f := by
  rw [List.filterMap_cons]
  cases f a <;> rfl

theorem turnsFor_cons (change : Change) (m : Moment) (l : List Moment) :
    turnsFor change (m :: l) = (turnFor? change m).toList ++ turnsFor change l := filterMap_cons_toList ..

theorem callsIn_cons (m : Moment) (l : List Moment) : callsIn (m :: l) = (callIn? m).toList ++ callsIn l :=
  filterMap_cons_toList ..

theorem callersFor_append (change : Change) (c c' : List (ListenerName × Change)) :
    callersFor change (c ++ c') = callersFor change c ++ callersFor change c' := by
  unfold callersFor
  rw [List.filter_append, List.map_append]

/-! ### Calls -/

theorem eq_turn_of_callIn? (h : callIn? m = some (name, change)) : m = .turn name change true := by
  cases m with
  | turn name' change' called =>
    cases called with
    | false => cases h
    | true =>
      cases h
      rfl
  | did | took | failed | closed => cases h

theorem Unfolds.heard_eq (h : Unfolds ds s l ds') : (s.along l).heard = s.heard ++ callsIn l := by
  induction h with
  | nil => exact (List.append_nil _).symm
  | cons hstep _ ih => rw [along_cons, ih, hstep.heard_eq, List.append_assoc, callsIn_cons]

/-- Those who are called are among those who have a turn. -/
theorem callersFor_callsIn_sublist (change : Change) (l : List Moment) :
    (callersFor change (callsIn l)).Sublist (turnsFor change l) := by
  induction l with
  | nil => exact .slnil
  | cons m l ih =>
    rw [callsIn_cons, callersFor_append, turnsFor_cons]
    refine List.Sublist.append ?_ ih
    cases m with
    | turn name told called =>
      by_cases htold : told = change <;> cases called <;> simp [callersFor, callIn?, turnFor?, htold]
    | did | took | failed | closed => exact .slnil

/-! ### Frames -/

theorem frames_announce {chunk : Bytes} (h : s.announce chunk = some (change, u)) :
    change.frame = s.frames + 1 ∧ u.frames = s.frames + 1 := by
  obtain ⟨terminal, notices, e, ht, -, -, -, rfl, rfl⟩ := announce_spec h
  unfold frames
  rw [ht]
  exact ⟨rfl, rfl⟩

/-- Frames are counted when a chunk is taken that changes the text. -/
theorem Step.frames_le (h : Step ds s m ds') (hkeeps : m.KeepsTerminal) : s.frames ≤ (m.pass s).frames := by
  unfold frames
  cases h with
  | did hquiet => exact Nat.le_of_eq (by rw [frames_did hkeeps hquiet])
  | took ha =>
    rw [pass_took ha]
    have hcount := (frames_announce ha).2
    unfold frames at hcount
    omega
  | turn => exact Nat.le_of_eq (by rw [terminal_turn])
  | failed => exact Nat.le_of_eq (by rw [(sameRecords_failed _).frames_eq])
  | closed => exact Nat.le_of_eq (by rw [(sameRecords_closed _).frames_eq])

/-- The changes that are being told have been counted. -/
def Counted (ds : List Dispatch) (s : Scene) : Prop := ∀ d ∈ ds, d.change.frame ≤ s.frames

private theorem Step.counted (h : Step ds s m ds') (hkeeps : m.KeepsTerminal) (hds : Counted ds s) :
    Counted ds' (m.pass s) := by
  have hle := h.frames_le hkeeps
  cases h with
  | took ha =>
    obtain ⟨hframe, hu⟩ := frames_announce ha
    rw [pass_took ha] at hle ⊢
    intro d hd
    rcases List.mem_cons.1 hd with rfl | hd
    · dsimp only
      omega
    · exact Nat.le_trans (hds d hd) hle
  | turn =>
    intro d hd
    rcases List.mem_cons.1 hd with rfl | hd
    · exact Nat.le_trans (hds ⟨_, _ :: _⟩ (List.mem_cons_self ..)) hle
    · exact Nat.le_trans (hds d (List.mem_cons_of_mem _ hd)) hle
  | did | failed => exact fun d hd => Nat.le_trans (hds d hd) hle
  | closed => exact fun d hd => Nat.le_trans (hds d (List.mem_cons_of_mem _ hd)) hle

theorem Unfolds.frames_le (h : Unfolds ds s l ds') (hkeeps : ∀ m ∈ l, m.KeepsTerminal) :
    s.frames ≤ (s.along l).frames := by
  induction h with
  | nil => exact Nat.le_refl _
  | @cons _ _ _ s m rest hstep _ ih =>
    have hle := hstep.frames_le (hkeeps m (List.mem_cons_self ..))
    exact Nat.le_trans hle (ih fun m hm => hkeeps m (List.mem_cons_of_mem _ hm))

/-- Nobody has a turn to be told of a change before it is counted. -/
theorem Unfolds.counted (h : Unfolds ds s l ds') (hkeeps : ∀ m ∈ l, m.KeepsTerminal) (hds : Counted ds s) :
    Counted ds' (s.along l) ∧ ∀ change : Change, (s.along l).frames < change.frame → turnsFor change l = [] := by
  induction h with
  | nil => exact ⟨hds, fun _ _ => rfl⟩
  | @cons ds ds' _ s m rest hstep hrest ih =>
    have hfirst := hkeeps m (List.mem_cons_self ..)
    have hlater : ∀ m ∈ rest, m.KeepsTerminal := fun m hm => hkeeps m (List.mem_cons_of_mem _ hm)
    obtain ⟨hcounted, hturns⟩ := ih hlater (hstep.counted hfirst hds)
    refine ⟨hcounted, ?_⟩
    intro change hchange
    have hle := Nat.le_trans (hstep.frames_le hfirst) (hrest.frames_le hlater)
    rw [along_cons] at hchange
    rw [turnsFor_cons, hturns change hchange, List.append_nil]
    cases hstep with
    | @turn _ _ told =>
      have htold : told.frame ≤ s.frames := hds ⟨told, _ :: _⟩ (List.mem_cons_self ..)
      have hne : told ≠ change := by
        rintro rfl
        omega
      rw [turnFor?, if_neg hne, Option.toList_none]
    | did | took | failed | closed => rfl

/-! ### Turns -/

theorem waitingFor_cons (d : Dispatch) (ds : List Dispatch) :
    waitingFor change (d :: ds) = (if d.change = change then d.waiting else []) ++ waitingFor change ds := by
  unfold waitingFor
  rw [List.filter_cons]
  by_cases h : d.change = change <;> simp [h]

private theorem waitingFor_of_counted (hds : Counted ds s) (hchange : s.frames < change.frame) :
    waitingFor change ds = [] := by
  have hnone : (ds.filter fun d => d.change = change) = [] := by
    refine List.filter_eq_nil_iff.2 ?_
    intro d hd h
    have hle := hds d hd
    rw [of_decide_eq_true h] at hle
    omega
  unfold waitingFor
  rw [hnone, List.flatMap_nil]

/-- Once a change has been counted, those who are waiting to be told of it have their turns in order. -/
theorem Unfolds.turnsFor_append (h : Unfolds ds s l ds') (hkeeps : ∀ m ∈ l, m.KeepsTerminal)
    (change : Change) (hchange : change.frame ≤ s.frames) :
    turnsFor change l ++ waitingFor change ds' = waitingFor change ds := by
  induction h with
  | nil => rfl
  | @cons ds ds' ds'' s m rest hstep _ ih =>
    have hfirst := hkeeps m (List.mem_cons_self ..)
    have hcounted := Nat.le_trans hchange (hstep.frames_le hfirst)
    have hrest := ih (fun m hm => hkeeps m (List.mem_cons_of_mem _ hm)) hcounted
    rw [turnsFor_cons, List.append_assoc, hrest]
    cases hstep with
    | did | failed => rfl
    | took ha =>
      -- A new change is another one, for its frame is counted only now.
      have hframe := (frames_announce ha).1
      rw [waitingFor_cons, if_neg]
      · rfl
      · rintro rfl
        dsimp only at hchange
        omega
    | @turn _ _ told name waiting =>
      rw [waitingFor_cons, waitingFor_cons]
      dsimp only [turnFor?]
      by_cases htold : told = change
      · rw [if_pos htold, if_pos htold, if_pos htold]
        rfl
      · rw [if_neg htold, if_neg htold, if_neg htold]
        rfl
    | @closed _ _ told =>
      rw [waitingFor_cons]
      dsimp only
      rw [ite_self]
      rfl

/-! ### Members -/

theorem IsMember.last (h : IsMember name s l) : name ∈ (s.along l).members := by
  induction l generalizing s with
  | nil => exact h
  | cons m l ih => exact ih h.2

/-- A listener that is registered and has not been registered anew has been registered all the time. -/
theorem NeverRejoins.isMember (h : NeverRejoins name s l) (hlast : name ∈ (s.along l).members) : IsMember name s l := by
  induction l generalizing s with
  | nil => exact hlast
  | cons m l ih =>
    have hrest := ih h.2 hlast
    have hnext : name ∈ (m.pass s).members := by
      cases l with
      | nil => exact hrest
      | cons => exact hrest.1
    exact ⟨h.1 hnext, hrest⟩

/-! ### Dispatches -/

variable {before rest : List Moment} {chunk : Bytes}

/-- When a change is announced, all those who are registered are to be told of it. -/
theorem Unfolds.split_took (h : Unfolds ds s (before ++ .took chunk :: rest) ds')
    (ha : (s.along before).announce chunk = some (change, u)) :
    ∃ ds₁, Unfolds ds s before ds₁ ∧ Unfolds (⟨change, u.members⟩ :: ds₁) u rest ds' := by
  obtain ⟨ds₁, hbefore, hafter⟩ := h.split
  refine ⟨ds₁, hbefore, ?_⟩
  cases hafter with
  | cons hstep hrest =>
    cases hstep with
    | took ha' =>
      rw [ha] at ha'
      obtain ⟨rfl, rfl⟩ := Prod.mk.inj (Option.some.inj ha')
      rwa [pass_took ha] at hrest

/-- Nobody is told of the change before it is announced, and afterwards only those who wait for it. -/
theorem Unfolds.turnsFor_eq (h : Unfolds [] s (before ++ .took chunk :: rest) [])
    (hkeeps : ∀ m ∈ before ++ .took chunk :: rest, m.KeepsTerminal)
    (ha : (s.along before).announce chunk = some (change, u)) :
    turnsFor change (before ++ .took chunk :: rest) = u.members := by
  obtain ⟨ds, hbefore, hrest⟩ := h.split_took ha
  obtain ⟨hframe, hu⟩ := frames_announce ha
  obtain ⟨hcounted, hnone⟩ :=
    hbefore.counted (fun m hm => hkeeps m (List.mem_append_left _ hm)) (by simp [Counted])
  have hwaiting := hrest.turnsFor_append
    (fun m hm => hkeeps m (List.mem_append_right _ (List.mem_cons_of_mem _ hm))) change (by omega)
  rw [waitingFor_cons, if_pos rfl, waitingFor_of_counted hcounted (by omega), List.append_nil] at hwaiting
  have hsplit : turnsFor change (before ++ .took chunk :: rest) = turnsFor change before ++ turnsFor change rest :=
    List.filterMap_append
  rw [hsplit, hnone change (by omega), List.nil_append]
  exact (List.append_nil _).symm.trans hwaiting

private theorem Unfolds.called_iff {past : List Moment} {called : Bool} (h : Unfolds ds s rest ds')
    (hpast : past ++ [.turn name change called] <+: rest) : called = true ↔ name ∈ (s.along past).members := by
  obtain ⟨more, rfl⟩ := hpast
  rw [List.append_assoc] at h
  obtain ⟨_, -, hturn⟩ := h.split
  cases hturn with
  | cons hstep _ =>
    cases hstep
    exact decide_eq_true_iff

/-- When a chunk has changed the text, those who are registered have one turn each to be told of it, in the order of
registration, and nobody has another turn.  At its turn a listener is called if and only if it is registered then; if it
has not been registered anew since the dispatch began, that is if and only if it has been registered all the time. -/
theorem dispatch_calls_members (room : Nat) (commands commands' : List Command) {s u : Scene}
    {before rest : List Moment} {chunk : Bytes} {change : Change} (hs : carryOut room { } commands = s)
    (hkeeps : ∀ m ∈ history room commands' s, m.KeepsTerminal)
    (hl : history room commands' s = before ++ .took chunk :: rest)
    (ha : (s.along before).announce chunk = some (change, u)) :
    u.members.Nodup ∧ turnsFor change (history room commands' s) = u.members ∧
      (carryOut room s commands').heard = s.heard ++ callsIn (history room commands' s) ∧
      (callersFor change (callsIn (history room commands' s))).Sublist u.members ∧
      ∀ past name called, past ++ [.turn name change called] <+: rest →
        (called = true ↔ name ∈ (u.along past).members) ∧
        (NeverRejoins name u past → (called = true ↔ IsMember name u past)) := by
  obtain ⟨hunfolds, halong⟩ := history_recorded room commands' s
  have hheard := hunfolds.heard_eq
  rw [halong] at hheard
  rw [hl] at hunfolds hkeeps hheard ⊢
  have hturns := hunfolds.turnsFor_eq hkeeps ha
  obtain ⟨ds, hbefore, hrest⟩ := hunfolds.split_took ha
  have hnodup : u.members.Nodup := by
    have hmembers := (sameBooks_took ha).members_eq
    rw [pass_took ha] at hmembers
    rw [hmembers]
    exact hbefore.nodup (hs ▸ nodup_carryOut room commands)
  refine ⟨hnodup, hturns, hheard, ?_, ?_⟩
  · rw [← hturns]
    exact callersFor_callsIn_sublist ..
  · intro past name called hpast
    have hcalled := hrest.called_iff hpast
    exact ⟨hcalled, fun hnever => hcalled.trans ⟨hnever.isMember, IsMember.last⟩⟩

/-- A chunk that changes the text is taken before anything else happens. -/
private theorem history_write {chunk : Bytes} (room : Nat) (ha : s.announce chunk = some (change, u)) :
    ∃ rest, history room [.write chunk] s = .took chunk :: rest := by
  unfold history momentsOf
  dsimp only
  rw [ha]
  exact ⟨_, rfl⟩

/-- The first of two listeners removes the second one, which has a turn and is passed over. -/
theorem dispatch_passes_over_removed :
    ∃ s change u,
      carryOut 1 { } [.create 2 1, .listener "a" true [] [.unlisten (some "b")], .subscribe (some "a") none,
        .subscribe (some "b") none] = s ∧
      s.announce [0x61] = some (change, u) ∧ turnsFor change (history 1 [.write [0x61]] s) = ["a", "b"] ∧
      (carryOut 1 s [.write [0x61]]).heard = [("a", change)] := by
  obtain ⟨s, hs⟩ : ∃ s, carryOut 1 { } [.create 2 1, .listener "a" true [] [.unlisten (some "b")],
      .subscribe (some "a") none, .subscribe (some "b") none] = s := ⟨_, rfl⟩
  obtain ⟨⟨change, u⟩, ha, hmembers⟩ : ∃ announced, s.announce [0x61] = some announced ∧
      announced.2.members = ["a", "b"] := by
    rw [← Option.map_eq_some_iff (f := fun announced : Change × Scene => announced.2.members), ← hs]
    decide +kernel
  obtain ⟨rest, hl⟩ : ∃ rest, history 1 [.write [0x61]] s = [] ++ .took [0x61] :: rest := history_write 1 ha
  have hkeeps : ∀ m ∈ history 1 [.write [0x61]] s, m.KeepsTerminal := by
    subst hs
    decide +kernel
  obtain ⟨-, hturns, -⟩ := dispatch_calls_members 1 _ [.write [0x61]] hs hkeeps hl ha
  have hheard : some (carryOut 1 s [.write [0x61]]).heard =
      (s.announce [0x61]).map fun announced => [("a", announced.1)] := by
    subst hs
    decide +kernel
  rw [ha] at hheard
  exact ⟨s, change, u, hs, ha, hturns.trans hmembers, Option.some.inj hheard⟩

/-- The first of two listeners removes the second one and registers it anew.  The second one is called, although it has
not been registered all the time since the dispatch began. -/
theorem rejoined_is_called :
    ∃ s change u rest past,
      carryOut 1 { } [.create 2 1, .listener "a" true [] [.unlisten (some "b"), .subscribe (some "b") none],
        .subscribe (some "a") none, .subscribe (some "b") none] = s ∧
      s.announce [0x61] = some (change, u) ∧ history 1 [.write [0x61]] s = .took [0x61] :: rest ∧
      past ++ [.turn "b" change true] <+: rest ∧ "b" ∈ u.members ∧ ¬ IsMember "b" u past := by
  obtain ⟨s, hs⟩ : ∃ s, carryOut 1 { } [.create 2 1, .listener "a" true [] [.unlisten (some "b"),
      .subscribe (some "b") none], .subscribe (some "a") none, .subscribe (some "b") none] = s := ⟨_, rfl⟩
  obtain ⟨⟨change, u⟩, ha, hmember⟩ : ∃ announced, s.announce [0x61] = some announced ∧
      decide ("b" ∈ announced.2.members) = true := by
    rw [← Option.map_eq_some_iff (f := fun announced : Change × Scene => decide ("b" ∈ announced.2.members)), ← hs]
    decide +kernel
  obtain ⟨rest, hl⟩ := history_write 1 ha
  have hcall : (history 1 [.write [0x61]] s).tail[3]?.bind callIn? =
      (s.announce [0x61]).map fun announced => ("b", announced.1) := by
    subst hs
    decide +kernel
  have hnot : ¬ IsMember "b" (Moment.pass s (.took [0x61])) ((history 1 [.write [0x61]] s).tail.take 3) := by
    subst hs
    decide +kernel
  rw [hl, List.tail_cons, ha] at hcall
  rw [hl, List.tail_cons, pass_took ha] at hnot
  obtain ⟨m, hm, hturn⟩ := Option.bind_eq_some_iff.1 hcall
  rw [eq_turn_of_callIn? hturn] at hm
  refine ⟨s, change, u, rest, rest.take 3, hs, ha, hl, ?_, of_decide_eq_true hmember, hnot⟩
  have htake : rest.take 4 = rest.take 3 ++ [.turn "b" change true] := by
    rw [List.take_add_one, hm]
    rfl
  rw [← htake]
  exact List.take_prefix 4 rest

end Scene

end ScreenWatch
