import Mathlib.Data.List.Induction
import ScreenWatch.Proofs.Terminal.Moments

/-!
# Frames, the flag for unread changes and the hash of the last reading

A terminal counts, flags and marks while its listeners do the same to it.  At any moment of a run, also within calls,
these records say what happened so far: the frames are those of the chunks that have changed the text when they were
taken, numbered in that order; the flag tells whether there has been such a chunk since it was asked for or cleared the
last time; and the hash is that of the screen at the last reading (`records_tell_history`).  Nothing else changes them
(`Step.counts_eq`).
-/

namespace ScreenWatch

namespace Moment

/-- The chunk that is written. -/
def chunk? : Moment → Option Bytes
  | took chunk | did (.write chunk) => some chunk
  | _ => none

/-- The flag for unread changes is asked for, or the screen is marked as read. -/
def Reads : Moment → Prop
  | did command => ¬ command.KeepsUnread
  | _ => False

theorem ne_markRead_of_not_reads {m : Moment} (h : ¬ m.Reads) : m ≠ did .markRead := by
  rintro rfl
  exact h id

end Moment

namespace Scene

variable {s : Scene} {t u : Terminal} {ds ds' : List Dispatch} {m : Moment} {l : List Moment}

/-- Whether a chunk is written that changes the text. -/
def rewrites (s : Scene) (m : Moment) : Bool :=
  match m.chunk?, s.terminal with
  | some chunk, some t => decide (t.text ≠ (t.emulator.written chunk).screen.text)
  | _, _ => false

/-- The frame of the change that is announced. -/
def frame? (s : Scene) (m : Moment) : Option Nat :=
  m.chunk?.bind fun chunk => (s.announce chunk).map fun announced => announced.1.frame

/-- What `f` finds at moments, one after another. -/
def gather {α : Type} (f : Scene → Moment → Option α) : Scene → List Moment → List α
  | _, [] => []
  | s, m :: rest => (f s m).toList ++ gather f (m.pass s) rest

/-- The frames of the chunks that change the text. -/
def framesGiven (s : Scene) (l : List Moment) : List (Option Nat) :=
  gather (fun s m => if s.rewrites m then some (s.frame? m) else none) s l

/-- The hash of the screen whenever it is marked as read. -/
def hashesMarked (s : Scene) (l : List Moment) : List UInt32 :=
  gather (fun s m => match m with
    | .did .markRead => s.terminal.map fun t => t.screen.hash
    | _ => none) s l

/-- The text was changed by a chunk, and nobody has asked for the flag or marked the screen as read since. -/
def HasUnread (s : Scene) (l : List Moment) : Prop :=
  ∃ before m after, l = before ++ m :: after ∧ (s.along before).rewrites m = true ∧ ∀ m ∈ after, ¬ m.Reads

/-- The records of a terminal tell what has happened since there were none. -/
structure Tells (s : Scene) (l : List Moment) (t : Terminal) : Prop where
  frames_eq : framesGiven s l = (List.range' 1 t.frames).map some
  unread_iff : t.unread = true ↔ HasUnread s l
  readHash_eq : t.readHash = (hashesMarked s l).getLast?.getD 0

/-! ### One moment -/

theorem gather_append {α : Type} (f : Scene → Moment → Option α) (s : Scene) (l l' : List Moment) :
    gather f s (l ++ l') = gather f s l ++ gather f (s.along l) l' := by
  induction l generalizing s with
  | nil => rfl
  | cons m l ih => exact (congrArg _ (ih _)).trans (List.append_assoc ..).symm

private theorem gather_concat {α : Type} (f : Scene → Moment → Option α) (s : Scene) (l : List Moment) (m : Moment) :
    gather f s (l ++ [m]) = gather f s l ++ (f (s.along l) m).toList := by
  rw [gather_append]
  exact congrArg _ (List.append_nil _)

private theorem framesGiven_concat (s : Scene) (l : List Moment) (m : Moment) : framesGiven s (l ++ [m]) =
    framesGiven s l ++ (if (s.along l).rewrites m then [(s.along l).frame? m] else []) := by
  refine (gather_concat ..).trans (congrArg _ ?_)
  split <;> rfl

private theorem hashesMarked_concat (s : Scene) (l : List Moment) (h : m ≠ .did .markRead) :
    hashesMarked s (l ++ [m]) = hashesMarked s l := by
  refine (gather_concat ..).trans ?_
  cases m with
  | did command =>
    cases command with
    | markRead => exact (h rfl).elim
    | _ => exact List.append_nil _
  | took | turn | failed | closed => exact List.append_nil _

private theorem hashesMarked_markRead (ht : (s.along l).terminal = some t) :
    hashesMarked s (l ++ [.did .markRead]) = hashesMarked s l ++ [t.screen.hash] := by
  refine (gather_concat ..).trans ?_
  dsimp only
  rw [ht]
  rfl

private theorem hasUnread_concat (s : Scene) (l : List Moment) (m : Moment) :
    HasUnread s (l ++ [m]) ↔ (s.along l).rewrites m = true ∨ HasUnread s l ∧ ¬ m.Reads := by
  constructor
  · rintro ⟨before, m', after, hl, hrewrites, hafter⟩
    rcases List.eq_nil_or_concat after with rfl | ⟨after, last, rfl⟩
    · obtain ⟨rfl, hm⟩ := List.append_inj' hl rfl
      obtain ⟨rfl, -⟩ := List.cons.inj hm
      exact .inl hrewrites
    · rw [List.concat_eq_append] at hl hafter
      rw [← List.cons_append, ← List.append_assoc] at hl
      obtain ⟨rfl, hm⟩ := List.append_inj' hl rfl
      obtain ⟨rfl, -⟩ := List.cons.inj hm
      exact .inr ⟨⟨before, m', after, rfl, hrewrites, fun m hm => hafter m (List.mem_append_left _ hm)⟩,
        hafter m (List.mem_append_right _ (List.mem_singleton_self m))⟩
  · rintro (hrewrites | ⟨⟨before, m', after, rfl, hrewrites, hafter⟩, hreads⟩)
    · exact ⟨l, m, [], rfl, hrewrites, by simp⟩
    · refine ⟨before, m', after ++ [m], by simp, hrewrites, ?_⟩
      intro other hother
      rcases List.mem_append.1 hother with hother | hother
      · exact hafter other hother
      · rwa [List.mem_singleton.1 hother]

/-- What the records of a terminal are after a moment. -/
def countsAfter (t : Terminal) : Moment → Nat × Bool × UInt32
  | .took _ => (t.frames + 1, true, t.readHash)
  | .did .takeUnread => (t.frames, false, t.readHash)
  | .did .markRead => (t.frames, false, t.screen.hash)
  | _ => t.counts

private theorem countsAfter_did {command : Command} (h : command.KeepsUnread) :
    countsAfter t (.did command) = t.counts := by
  cases command with
  | takeUnread | markRead => exact h.elim
  | _ => rfl

theorem Step.counts_eq (h : Step ds s m ds') (hkeeps : m.KeepsTerminal) (ht : s.terminal = some t) :
    (m.pass s).terminal.map Terminal.counts = some (countsAfter t m) := by
  cases h with
  | @did _ _ command hquiet =>
    by_cases hunread : command.KeepsUnread
    · rw [counts_did hkeeps hunread hquiet, ht, countsAfter_did hunread]
      rfl
    · cases command with
      | takeUnread =>
        rw [pass_takeUnread, ht]
        rfl
      | markRead =>
        rw [pass_markRead, ht]
        rfl
      | _ => exact (hunread trivial).elim
  | took ha =>
    rw [pass_took ha]
    obtain ⟨terminal, notices, e, ht', -, -, -, -, rfl⟩ := announce_spec ha
    obtain rfl := Option.some.inj (ht.symm.trans ht')
    rfl
  | turn =>
    rw [terminal_turn, ht]
    rfl
  | failed =>
    rw [pass_failed, ht]
    rfl
  | closed =>
    obtain ⟨log, hpass⟩ := pass_closed (s := s) _
    rw [hpass, ht]
    rfl

private theorem rewrites_eq {chunk : Bytes} (hchunk : m.chunk? = some chunk) (ht : s.terminal = some t) :
    s.rewrites m = decide (t.text ≠ (t.emulator.written chunk).screen.text) := by
  unfold rewrites
  rw [hchunk, ht]

/-- The chunks that change the text are those that are announced. -/
theorem Step.rewrites_iff (h : Step ds s m ds') (hs : s.Reached) :
    s.rewrites m = true ↔ ∃ chunk change u, m = .took chunk ∧ s.announce chunk = some (change, u) := by
  cases h with
  | @did _ _ command hquiet =>
    refine iff_of_false ?_ (by simp)
    cases command with
    | write chunk =>
      cases ht : s.terminal with
      | none =>
        unfold rewrites
        rw [ht]
        exact Bool.false_ne_true
      | some t =>
        rw [rewrites_eq rfl ht, text_of_no_announce hs (hquiet chunk rfl) ht]
        simp
    | _ => exact Bool.false_ne_true
  | @took _ _ u chunk change ha =>
    refine iff_of_true ?_ ⟨chunk, change, u, rfl, ha⟩
    obtain ⟨terminal, notices, e, ht, hroom, he, hne, -, -⟩ := announce_spec ha
    have hwritten : terminal.emulator.written chunk = e := (if_pos hroom).trans (left_of_ok he)
    rw [rewrites_eq rfl ht, hwritten]
    exact decide_eq_true hne
  | turn | failed | closed => exact iff_of_false Bool.false_ne_true (by simp)

/-- Chunks that change the text and readings apart, moments leave the records alone. -/
private theorem Step.countsAfter_eq (h : Step ds s m ds') (hs : s.Reached) (hrewrites : s.rewrites m = false)
    (hreads : ¬ m.Reads) : countsAfter t m = t.counts := by
  cases m with
  | took chunk =>
    cases h with
    | @took _ _ u _ change ha =>
      have htook : Step ds s (.took chunk) (⟨change, u.members⟩ :: ds) := .took ha
      rw [(htook.rewrites_iff hs).2 ⟨chunk, change, u, rfl, ha⟩] at hrewrites
      cases hrewrites
  | did command => exact countsAfter_did (Classical.not_not.1 hreads)
  | turn | failed | closed => rfl

/-! ### All moments -/

private theorem frame?_of_announce {chunk : Bytes} {change : Change} {v : Scene} (ht : s.terminal = some t)
    (ha : s.announce chunk = some (change, v)) : s.frame? (.took chunk) = some (t.frames + 1) := by
  obtain ⟨terminal, notices, e, ht', -, -, -, rfl, -⟩ := announce_spec ha
  obtain rfl := Option.some.inj (ht.symm.trans ht')
  show (s.announce chunk).map (fun announced => announced.1.frame) = _
  rw [ha]
  rfl

namespace Tells

private theorem took (h : Tells s l t) (hrewrites : (s.along l).rewrites m = true)
    (hframe : (s.along l).frame? m = some (t.frames + 1)) (hreads : ¬ m.Reads)
    (hu : u.counts = (t.frames + 1, true, t.readHash)) : Tells s (l ++ [m]) u := by
  obtain ⟨hframes, -, hhash⟩ := h
  obtain ⟨hcount, hunread, hkept⟩ : u.frames = t.frames + 1 ∧ u.unread = true ∧ u.readHash = t.readHash := by
    simpa [Terminal.counts] using hu
  refine ⟨?_, ?_, ?_⟩
  · rw [framesGiven_concat, if_pos hrewrites, hframe, hframes, hcount, List.range'_concat, List.map_append, Nat.one_mul,
      Nat.add_comm 1]
    rfl
  · exact iff_of_true hunread ((hasUnread_concat ..).2 (.inl hrewrites))
  · rw [hashesMarked_concat s l (Moment.ne_markRead_of_not_reads hreads), hkept, hhash]

/-- A moment at which no chunk changes the text. -/
private theorem quiet (h : Tells s l t) (hrewrites : (s.along l).rewrites m = false) (hreads : ¬ m.Reads)
    (hu : u.counts = t.counts) : Tells s (l ++ [m]) u := by
  obtain ⟨hframes, hiff, hhash⟩ := h
  obtain ⟨hcount, hunread, hkept⟩ : u.frames = t.frames ∧ u.unread = t.unread ∧ u.readHash = t.readHash := by
    simpa [Terminal.counts] using hu
  refine ⟨?_, ?_, ?_⟩
  · rw [framesGiven_concat, hrewrites, hframes, hcount]
    exact List.append_nil _
  · rw [hasUnread_concat, hrewrites, hunread, hiff]
    simp [hreads]
  · rw [hashesMarked_concat s l (Moment.ne_markRead_of_not_reads hreads), hkept, hhash]

/-- The flag is asked for or cleared, and the hash may be another one. -/
private theorem read (h : Tells s l t) (hrewrites : (s.along l).rewrites m = false) (hreads : m.Reads) {hash : UInt32}
    (hu : u.counts = (t.frames, false, hash)) (hhash : hash = (hashesMarked s (l ++ [m])).getLast?.getD 0) :
    Tells s (l ++ [m]) u := by
  obtain ⟨hcount, hunread, rfl⟩ : u.frames = t.frames ∧ u.unread = false ∧ u.readHash = hash := by
    simpa [Terminal.counts] using hu
  refine ⟨?_, ?_, hhash⟩
  · rw [framesGiven_concat, hrewrites, h.frames_eq, hcount]
    exact List.append_nil _
  · rw [hasUnread_concat, hrewrites, hunread]
    simp [hreads]

/-- One moment after others. -/
private theorem step (h : Tells s l t) (ht : (s.along l).terminal = some t) (hstep : Step ds (s.along l) m ds')
    (hs : (s.along l).Reached) (hkeeps : m.KeepsTerminal) :
    ∃ u, (s.along (l ++ [m])).terminal = some u ∧ Tells s (l ++ [m]) u := by
  obtain ⟨u, hu, hcounts⟩ := Option.map_eq_some_iff.1 (hstep.counts_eq hkeeps ht)
  have hiff := hstep.rewrites_iff hs
  refine ⟨u, by rw [along_append]; exact hu, ?_⟩
  cases m with
  | took chunk =>
    cases hstep with
    | took ha => exact h.took (hiff.2 ⟨_, _, _, rfl, ha⟩) (frame?_of_announce ht ha) id hcounts
  | did command =>
    have hrewrites : (s.along l).rewrites (.did command) = false := by
      refine Bool.eq_false_iff.2 fun hrewrites => ?_
      obtain ⟨_, _, _, ⟨⟩, -⟩ := hiff.1 hrewrites
    by_cases hunread : command.KeepsUnread
    · exact h.quiet hrewrites (not_not_intro hunread) (hcounts.trans (countsAfter_did hunread))
    · cases command with
      | takeUnread =>
        refine h.read hrewrites id hcounts ?_
        rw [hashesMarked_concat s l (by simp), h.readHash_eq]
      | markRead =>
        refine h.read hrewrites id hcounts ?_
        rw [hashesMarked_markRead ht, List.getLast?_concat]
        rfl
      | _ => exact (hunread trivial).elim
  | turn | failed | closed => exact h.quiet rfl id hcounts

end Tells

/-- The induction is on the moments that have passed. -/
private theorem Unfolds.tells (h : Unfolds [] s l ds) (hs : s.Reached) (ht : s.terminal = some t)
    (hfresh : t.counts = (0, false, 0)) (hkeeps : ∀ m ∈ l, m.KeepsTerminal) :
    ∃ u, (s.along l).terminal = some u ∧ Tells s l u := by
  induction l using List.reverseRecOn generalizing ds with
  | nil =>
    obtain ⟨hcount, hunread, hhash⟩ : t.frames = 0 ∧ t.unread = false ∧ t.readHash = 0 := by
      simpa [Terminal.counts] using hfresh
    refine ⟨t, ht, ?_, ?_, hhash⟩
    · rw [hcount]
      rfl
    · rw [hunread]
      simp [HasUnread]
  | append_singleton l m ih =>
    obtain ⟨ds', hl, hstep⟩ := h.last
    obtain ⟨u, hu, htells⟩ := ih hl fun m hm => hkeeps m (List.mem_append_left _ hm)
    exact htells.step hu hstep (hl.reached hs) (hkeeps m (by simp))

/-- At any moment of a run, within calls of listeners or not, the number of frames is that of the chunks that have
changed the text when they were taken, and these are numbered from one in the order in which they were taken; the flag
is set, and told to be set, exactly if there has been such a chunk since it was last asked for or cleared; the hash is
that of the screen when it was last marked as read, or else zero.  Moments that are neither such chunks nor readings
leave all three alone. -/
theorem records_tell_history (room : Nat) (commands : List Command) {past rest : List Moment} (hs : s.Reached)
    (ht : s.terminal = some t) (hfresh : t.counts = (0, false, 0))
    (hkeeps : ∀ m ∈ history room commands s, m.KeepsTerminal) (hl : history room commands s = past ++ rest) :
    s.along (past ++ rest) = carryOut room s commands ∧
      ∃ u, (s.along past).terminal = some u ∧ Tells s past u ∧
        (∀ hear, ∃ v, perform hear .takeUnread (s.along past) = .ok (.truth u.unread) v) ∧
        ∀ m later, rest = m :: later → (s.along past).rewrites m = false → ¬ m.Reads →
          (m.pass (s.along past)).terminal.map Terminal.counts = some u.counts := by
  obtain ⟨hunfolds, halong⟩ := history_recorded room commands s
  rw [hl] at hunfolds halong hkeeps
  obtain ⟨ds, hpast, hrest⟩ := hunfolds.split
  obtain ⟨u, hu, htells⟩ := hpast.tells hs ht hfresh fun m hm => hkeeps m (List.mem_append_left _ hm)
  refine ⟨halong, u, hu, htells, fun hear => ?_, ?_⟩
  · have htake : (Reply.truth <$> Terminal.takeUnread) u = .ok (.truth u.unread) { u with unread := false } := rfl
    exact ⟨_, onTerminal_of_ok hu htake⟩
  · rintro m later rfl hrewrites hreads
    cases hrest with
    | cons hstep _ =>
      rw [hstep.counts_eq (hkeeps m (by simp)) hu, hstep.countsAfter_eq (hpast.reached hs) hrewrites hreads]

/-- A listener writes another letter, marks the screen as read and fails, and a letter is written to a wider screen. -/
theorem records_tell_history_of_letters :
    ∃ s t u,
      carryOut 2 { } [.create 2 1, .listener "a" true [[.write [0x62], .markRead, .fail none]] [],
        .subscribe (some "a") none] = s ∧
      s.terminal = some t ∧
      (carryOut 2 s [.write [0x61], .resize 3 1, .write [0x63]]).terminal = some u ∧
      Tells s (history 2 [.write [0x61], .resize 3 1, .write [0x63]] s) u ∧ u.frames = 3 ∧ u.unread = true ∧
      u.readHash ≠ 0 := by
  obtain ⟨s, hs⟩ : ∃ s, carryOut 2 { } [.create 2 1, .listener "a" true [[.write [0x62], .markRead, .fail none]] [],
      .subscribe (some "a") none] = s := ⟨_, rfl⟩
  obtain ⟨t, ht, hfresh⟩ : ∃ t, s.terminal = some t ∧ t.counts = (0, false, 0) := by
    rw [← Option.map_eq_some_iff, ← hs]
    decide +kernel
  obtain ⟨halong, u, hu, htells, -⟩ := records_tell_history 2 [.write [0x61], .resize 3 1, .write [0x63]]
    (hs ▸ reached_carryOut 2 _ : s.Reached) ht hfresh (by subst hs; decide +kernel) (List.append_nil _).symm
  have hcounts : (carryOut 2 s [.write [0x61], .resize 3 1, .write [0x63]]).terminal.map (fun u =>
      decide (u.frames = 3 ∧ u.unread = true ∧ u.readHash ≠ 0)) = some true := by
    subst hs
    decide +kernel
  rw [List.append_nil] at halong
  rw [← halong, hu] at hcounts
  obtain ⟨hframes, hunread, hhash⟩ := of_decide_eq_true (Option.some.inj hcounts)
  exact ⟨s, t, u, hs, ht, halong ▸ hu, htells, hframes, hunread, hhash⟩

end Scene

end ScreenWatch
