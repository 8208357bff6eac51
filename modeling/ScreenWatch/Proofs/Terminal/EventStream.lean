import ScreenWatch.Proofs.Terminal.Moments

/-!
# The stream of events

A listener that is registered from before the first change on hears of all changes, in order: each event takes up the
text where the one before it has left it, and the last one leaves the text that is on the screen (`hears_chain`).

The invariant is about the events that the listener has heard together with the one of which it is about to be told:
the text changes when a chunk is taken, and the listener hears of it later, when its turn comes.
-/

namespace ScreenWatch

/-- Events that lead from the text `start` to the text `present` without a gap, while `frames` frames are counted. -/
structure IsChain (start : Bytes) (events : List Change) (frames : Nat) (present : Bytes) : Prop where
  frames_eq : events.map Change.frame = List.range' 1 frames
  changed : ∀ e ∈ events, e.before ≠ e.after
  /-- The text before the first event is `start`, the text before any other is the one after its predecessor, and the
  text after the last one is `present`. -/
  linked : events.map Change.before ++ [present] = start :: events.map Change.after

namespace IsChain

theorem nil (start : Bytes) : IsChain start [] 0 start := ⟨rfl, by simp, rfl⟩

theorem concat {start present : Bytes} {events : List Change} {frames : Nat} (h : IsChain start events frames present)
    {e : Change} (hframe : e.frame = frames + 1) (hbefore : e.before = present) (hchanged : e.before ≠ e.after) :
    IsChain start (events ++ [e]) (frames + 1) e.after := by
  obtain ⟨hframes, hall, hlinked⟩ := h
  refine ⟨?_, ?_, ?_⟩
  · rw [List.map_append, hframes, List.range'_concat, List.map_singleton, hframe, Nat.one_mul, Nat.add_comm 1]
  · intro e' he'
    rcases List.mem_append.1 he' with he' | he'
    · exact hall e' he'
    · rw [List.mem_singleton.1 he']
      exact hchanged
  · rw [List.map_append, List.map_append, List.map_singleton, List.map_singleton, hbefore, hlinked, List.cons_append]

end IsChain

namespace Scene

/-- What a listener has heard. -/
def eventsOf (name : ListenerName) (heard : List (ListenerName × Change)) : List Change :=
  (heard.filter fun h => h.1 = name).map Prod.snd

/-- Listeners change no text: with `depth` dispatches under way, a chunk that changes the text is taken only if
`depth` is zero. -/
def OneAtATime : Nat → List Moment → Prop
  | _, [] => True
  | depth, .took _ :: rest => depth = 0 ∧ OneAtATime (depth + 1) rest
  | depth, .closed _ :: rest => OneAtATime (depth - 1) rest
  | depth, _ :: rest => OneAtATime depth rest

/-- `name` is registered when a chunk first changes the text, and ever after. -/
def Attends (name : ListenerName) : Scene → List Moment → Prop
  | _, [] => True
  | s, .took chunk :: rest => IsMember name s (.took chunk :: rest)
  | s, m :: rest => Attends name (m.pass s) rest

instance OneAtATime.instDecidable : (depth : Nat) → (l : List Moment) → Decidable (OneAtATime depth l)
  | _, [] => .isTrue trivial
  | depth, .took _ :: rest => @instDecidableAnd _ _ _ (instDecidable (depth + 1) rest)
  | depth, .closed _ :: rest => instDecidable (depth - 1) rest
  | depth, .did _ :: rest | depth, .turn _ _ _ :: rest | depth, .failed _ :: rest => instDecidable depth rest

instance Attends.instDecidable (name : ListenerName) : (s : Scene) → (l : List Moment) → Decidable (Attends name s l)
  | _, [] => .isTrue trivial
  | s, .took chunk :: rest => inferInstanceAs (Decidable (IsMember name s (.took chunk :: rest)))
  | s, .did command :: rest => instDecidable name (Moment.pass s (.did command)) rest
  | s, .turn other change called :: rest => instDecidable name (Moment.pass s (.turn other change called)) rest
  | s, .failed failure :: rest => instDecidable name (Moment.pass s (.failed failure)) rest
  | s, .closed change :: rest => instDecidable name (Moment.pass s (.closed change)) rest

variable {name : ListenerName} {start : Bytes} {old : List (ListenerName × Change)} {s : Scene}
  {ds ds' : List Dispatch} {l : List Moment}

/-- The changes of which `name` is about to be told. -/
def pending (name : ListenerName) (ds : List Dispatch) : List Change :=
  (ds.filter fun d => name ∈ d.waiting).map Dispatch.change

/-- Since `old` was heard, `name` has followed the changes of the text, up to those of which it is about to be told. -/
structure Follows (name : ListenerName) (start : Bytes) (old : List (ListenerName × Change)) (ds : List Dispatch)
    (s : Scene) : Prop where
  reached : s.Reached
  nodup : s.members.Nodup
  waiting_nodup : ∀ d ∈ ds, d.waiting.Nodup
  single : ds.length ≤ 1
  chain : ∃ t new, s.terminal = some t ∧ s.heard = old ++ new ∧
    IsChain start (eventsOf name new ++ pending name ds) t.frames t.text

theorem eventsOf_append (name : ListenerName) (h h' : List (ListenerName × Change)) :
    eventsOf name (h ++ h') = eventsOf name h ++ eventsOf name h' := by
  unfold eventsOf
  rw [List.filter_append, List.map_append]

theorem eventsOf_self (name : ListenerName) (change : Change) : eventsOf name [(name, change)] = [change] := by
  simp [eventsOf]

theorem eventsOf_of_ne {other : ListenerName} (h : other ≠ name) (change : Change) :
    eventsOf name [(other, change)] = [] := by
  simp [eventsOf, h]

theorem pending_of_mem {change : Change} {waiting : List ListenerName} (h : name ∈ waiting) :
    pending name [⟨change, waiting⟩] = [change] := by
  simp [pending, h]

theorem pending_of_not_mem {change : Change} {waiting : List ListenerName} (h : name ∉ waiting) :
    pending name [⟨change, waiting⟩] = [] := by
  simp [pending, h]

/-- A moment that leaves alone what has been heard, the frames and the text. -/
private theorem Follows.same {t : Scene} (h : Follows name start old ds s) (hreached : t.Reached)
    (hnodup : t.members.Nodup) (hheard : t.heard = s.heard)
    (hframes : t.terminal.map Terminal.frames = s.terminal.map Terminal.frames)
    (htext : t.terminal.map Terminal.text = s.terminal.map Terminal.text) : Follows name start old ds t := by
  obtain ⟨-, -, hwaiting, hsingle, terminal, new, ht, hnew, hchain⟩ := h
  rw [ht] at hframes htext
  obtain ⟨terminal', ht', hframes'⟩ := Option.map_eq_some_iff.1 hframes
  rw [ht', Option.map_some, Option.map_some] at htext
  refine ⟨hreached, hnodup, hwaiting, hsingle, terminal', new, ht', hheard.trans hnew, ?_⟩
  rw [hframes', Option.some.inj htext]
  exact hchain

private theorem Follows.took {t : Scene} {chunk : Bytes} {change : Change} (h : Follows name start old [] s)
    (ha : s.announce chunk = some (change, t)) (hname : name ∈ s.members) (hreached : t.Reached)
    (hnodup : t.members.Nodup) (hmembers : t.members = s.members) :
    Follows name start old [⟨change, t.members⟩] t := by
  obtain ⟨-, -, -, -, terminal, new, ht, hnew, hchain⟩ := h
  obtain ⟨terminal', notices, e, ht', -, -, hne, rfl, rfl⟩ := announce_spec ha
  obtain rfl := Option.some.inj (ht.symm.trans ht')
  refine ⟨hreached, hnodup, ?_, Nat.le_refl 1, _, new, rfl, hnew, ?_⟩
  · intro d hd
    rw [List.mem_singleton.1 hd]
    exact hnodup
  · rw [hmembers, pending_of_mem hname]
    rw [show pending name [] = [] from rfl, List.append_nil] at hchain
    exact hchain.concat rfl rfl hne

/-- When it is the turn of `name`, it is told of the change, and is not about to be told of it any more. -/
private theorem Follows.turn {t : Scene} {change : Change} {other : ListenerName} {waiting : List ListenerName}
    (h : Follows name start old (⟨change, other :: waiting⟩ :: ds) s) (hname : name ∈ s.members) (hreached : t.Reached)
    (hnodup : t.members.Nodup) (hterminal : t.terminal = s.terminal)
    (hheard : t.heard = s.heard ++ (callIn? (.turn other change (decide (other ∈ s.members)))).toList) :
    Follows name start old (⟨change, waiting⟩ :: ds) t := by
  obtain ⟨-, -, hwaiting, hsingle, terminal, new, ht, hnew, hchain⟩ := h
  obtain rfl : ds = [] := List.eq_nil_of_length_eq_zero (Nat.le_zero.1 (Nat.le_of_succ_le_succ hsingle))
  obtain ⟨hother, hrest⟩ := List.nodup_cons.1 (hwaiting _ (List.mem_singleton_self _))
  rw [hnew, List.append_assoc] at hheard
  refine ⟨hreached, hnodup, ?_, hsingle, terminal, _, hterminal.trans ht, hheard, ?_⟩
  · intro d hd
    rw [List.mem_singleton.1 hd]
    exact hrest
  · rw [eventsOf_append]
    by_cases hsame : other = name
    · subst hsame
      rw [pending_of_mem (List.mem_cons_self ..)] at hchain
      rw [decide_eq_true hname, pending_of_not_mem hother, List.append_nil]
      exact eventsOf_self other change ▸ hchain
    · have hpending : pending name [⟨change, other :: waiting⟩] = pending name [⟨change, waiting⟩] := by
        by_cases hmem : name ∈ waiting
        · rw [pending_of_mem hmem, pending_of_mem (List.mem_cons_of_mem _ hmem)]
        · rw [pending_of_not_mem hmem,
            pending_of_not_mem (List.not_mem_cons_of_ne_of_not_mem (Ne.symm hsame) hmem)]
      have hevents (called : Bool) : eventsOf name (callIn? (.turn other change called)).toList = [] := by
        cases called with
        | false => rfl
        | true => exact eventsOf_of_ne hsame change
      rwa [hevents, List.append_nil, ← hpending]

private theorem Follows.closed {change : Change} (h : Follows name start old (⟨change, []⟩ :: ds) s) :
    Follows name start old ds s := by
  obtain ⟨hreached, hnodup, -, hsingle, hchain⟩ := h
  obtain rfl : ds = [] := List.eq_nil_of_length_eq_zero (Nat.le_zero.1 (Nat.le_of_succ_le_succ hsingle))
  exact ⟨hreached, hnodup, by simp, Nat.zero_le 1, hchain⟩

/-- One moment, at which the listener is registered if it is about listeners. -/
private theorem Follows.step {m : Moment} (h : Follows name start old ds s) (hstep : Step ds s m ds')
    (hkeeps : m.KeepsText) (hone : OneAtATime ds.length [m])
    (hname : (∃ chunk, m = .took chunk) ∨ ds ≠ [] → name ∈ s.members) : Follows name start old ds' (m.pass s) := by
  have hreached := hstep.reached h.reached
  have hnodup := hstep.nodup h.nodup
  have hheard := hstep.heard_eq
  cases hstep with
  | did hquiet =>
    exact h.same hreached hnodup (heard_did hquiet) (frames_did (Command.KeepsText.keepsTerminal hkeeps) hquiet)
      (text_did h.reached hkeeps hquiet)
  | @took _ _ _ chunk _ ha =>
    obtain rfl := List.eq_nil_of_length_eq_zero hone.1
    have hmembers := (sameBooks_took ha).members_eq
    rw [pass_took ha] at hreached hnodup hmembers ⊢
    exact h.took ha (hname (.inl ⟨chunk, rfl⟩)) hreached hnodup hmembers
  | turn => exact h.turn (hname (.inr (by simp))) hreached hnodup (terminal_turn ..) hheard
  | @failed _ _ failure =>
    have hrecords := sameRecords_failed (s := s) failure
    refine h.same hreached hnodup hrecords.heard_eq hrecords.frames_eq ?_
    rw [pass_failed]
    exact Option.map_map ..
  | @closed _ _ change =>
    have hrecords := sameRecords_closed (s := s) change
    refine h.closed.same hreached hnodup hrecords.heard_eq hrecords.frames_eq ?_
    obtain ⟨log, hpass⟩ := pass_closed (s := s) change
    rw [hpass]

theorem OneAtATime.step {m : Moment} (h : OneAtATime ds.length (m :: l)) (hstep : Step ds s m ds') :
    OneAtATime ds.length [m] ∧ OneAtATime ds'.length l := by
  cases hstep with
  | took => exact ⟨⟨h.1, trivial⟩, h.2⟩
  | did | turn | failed | closed => exact ⟨trivial, h⟩

/-- The induction is on how the moments unfold.  Before the first change no dispatch is under way, and it does not
matter who is registered. -/
private theorem Follows.along (h : Follows name start old ds s) (hl : Unfolds ds s l ds')
    (hkeeps : ∀ m ∈ l, m.KeepsText) (hone : OneAtATime ds.length l)
    (hlisten : ds = [] ∧ Attends name s l ∨ IsMember name s l) : Follows name start old ds' (s.along l) := by
  induction hl with
  | nil => exact h
  | @cons ds ds' _ s m rest hstep _ ih =>
    obtain ⟨honeFirst, honeRest⟩ := hone.step hstep
    obtain ⟨hname, hrest⟩ : ((∃ chunk, m = .took chunk) ∨ ds ≠ [] → name ∈ s.members) ∧
        (ds' = [] ∧ Attends name (m.pass s) rest ∨ IsMember name (m.pass s) rest) := by
      rcases hlisten with ⟨rfl, hattends⟩ | hmember
      · cases hstep with
        | took => exact ⟨fun _ => hattends.1, .inr hattends.2⟩
        | did | failed => exact ⟨fun h => by simp at h, .inl ⟨rfl, hattends⟩⟩
      · exact ⟨fun _ => hmember.1, .inr hmember.2⟩
    exact ih (h.step hstep (hkeeps m (List.mem_cons_self ..)) honeFirst hname)
      (fun m hm => hkeeps m (List.mem_cons_of_mem _ hm)) honeRest hrest

/-- A listener that is registered from before the first change on hears events that are numbered from one to the number
of frames and lead, each taking up where the one before it has ended, from the text at the start to the present text.
The other listeners may come and go, fail, and do whatever does not change the text. -/
theorem hears_chain (name : ListenerName) (room : Nat) (commands commands' : List Command) {t : Terminal}
    (hs : carryOut room { } commands = s) (ht : s.terminal = some t) (hframes : t.frames = 0)
    (hkeeps : ∀ m ∈ history room commands' s, m.KeepsText) (hone : OneAtATime 0 (history room commands' s))
    (hlisten : Attends name s (history room commands' s)) :
    ∃ t' new, (carryOut room s commands').terminal = some t' ∧ (carryOut room s commands').heard = s.heard ++ new ∧
      IsChain t.text (eventsOf name new) t'.frames t'.text := by
  have hreached : s.Reached := hs ▸ reached_carryOut room commands
  have hnodup : s.members.Nodup := hs ▸ nodup_carryOut room commands
  have hstart : Follows name t.text s.heard [] s := by
    refine ⟨hreached, hnodup, by simp, Nat.zero_le 1, t, [], ht, (List.append_nil _).symm, ?_⟩
    rw [hframes]
    exact .nil _
  obtain ⟨hunfolds, halong⟩ := history_recorded room commands' s
  have hend := hstart.along hunfolds hkeeps hone (.inl ⟨rfl, hlisten⟩)
  obtain ⟨t', new, ht', hnew, hchain⟩ := hend.chain
  rw [halong] at ht' hnew
  refine ⟨t', new, ht', hnew, ?_⟩
  rwa [show pending name [] = [] from rfl, List.append_nil] at hchain

/-- A listener hears of two letters, the second of which is split, beside another one that goes and fails. -/
theorem hears_chain_of_letters :
    ∃ s t t' new,
      carryOut 1 { } [.create 2 1, .listener "b" true [] [.unlisten (some "b"), .fail none],
        .subscribe (some "b") none] = s ∧
      s.terminal = some t ∧
      (carryOut 1 s [.subscribe (some "a") none, .write [0x61], .write [0xC3], .write [0xA9]]).terminal = some t' ∧
      t'.frames = 2 ∧ IsChain t.text (eventsOf "a" new) t'.frames t'.text := by
  obtain ⟨s, hs⟩ : ∃ s, carryOut 1 { } [.create 2 1, .listener "b" true [] [.unlisten (some "b"), .fail none],
      .subscribe (some "b") none] = s := ⟨_, rfl⟩
  obtain ⟨t, ht, hframes⟩ : ∃ t, s.terminal = some t ∧ t.frames = 0 := by
    rw [← Option.map_eq_some_iff, ← hs]
    decide +kernel
  obtain ⟨t', new, ht', -, hchain⟩ := hears_chain "a" 1 _
    [.subscribe (some "a") none, .write [0x61], .write [0xC3], .write [0xA9]] hs ht hframes
    (by subst hs; decide +kernel) (by subst hs; decide +kernel) (by subst hs; decide +kernel)
  have hcount : (carryOut 1 s [.subscribe (some "a") none, .write [0x61], .write [0xC3],
      .write [0xA9]]).terminal.map Terminal.frames = some 2 := by
    subst hs
    decide +kernel
  rw [ht'] at hcount
  exact ⟨s, t, t', new, hs, ht, ht', Option.some.inj hcount, hchain⟩

end Scene

end ScreenWatch
