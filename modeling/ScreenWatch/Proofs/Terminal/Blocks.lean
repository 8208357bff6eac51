import Mathlib.Data.List.Nodup
import ScreenWatch.Proofs.Terminal.Counts
import ScreenWatch.Proofs.Terminal.EventStream
import ScreenWatch.Proofs.Terminal.Traces

/-!
# The numbers of blocks

The block of a change is printed when all listeners have been told of the change, and its number is that of the frames
that have been counted by then.  So it has the number of the change only if no listener has changed the text meanwhile;
otherwise it has that of the last change that was made meanwhile, which has had its block already
(`blocks_count_changes_within`).

The moments of a run are a tree: what listeners write while they are told of a change is told within the dispatch of
that change.  `Shows` follows this tree and says which blocks come out of it.
-/

namespace ScreenWatch

namespace Scene

variable {s u : Scene} {ds ds' : List Dispatch} {l : List Moment} {m : Moment} {change : Change} {chunk : Bytes}
  {blocks : List Block}

/-! ### The changes of a run -/

/-- The change that is announced. -/
def change? (s : Scene) (m : Moment) : Option Change :=
  m.chunk?.bind fun chunk => (s.announce chunk).map Prod.fst

/-- The changes that are announced, in order. -/
def changesIn (s : Scene) (l : List Moment) : List Change := gather change? s l

private theorem Step.change?_eq (h : Step ds s m ds') (hquiet : m.IsQuiet) : s.change? m = none := by
  cases h with
  | @did _ _ command hnone =>
    cases command with
    | write chunk =>
      show (s.announce chunk).map Prod.fst = none
      rw [hnone chunk rfl]
      rfl
    | _ => rfl
  | turn | failed => rfl
  | took | closed => exact hquiet.elim

private theorem changesIn_quiet (h : Step ds s m ds') (hquiet : m.IsQuiet) (l : List Moment) :
    changesIn s (m :: l) = changesIn (m.pass s) l := by
  show (s.change? m).toList ++ changesIn (m.pass s) l = _
  rw [h.change?_eq hquiet]
  rfl

private theorem changesIn_write (ha : s.announce chunk = some (change, u)) (inside rest : List Moment) :
    changesIn s (.took chunk :: (inside ++ .closed change :: rest)) =
      change :: (changesIn u inside ++ changesIn (Moment.pass (u.along inside) (.closed change)) rest) := by
  show ((s.announce chunk).map Prod.fst).toList ++ changesIn (Moment.pass s (.took chunk)) _ = _
  rw [pass_took ha, ha, changesIn, gather_append]
  rfl

/-! ### Dispatches within dispatches -/

/-- The moments, in which every dispatch that begins comes to its end, show their changes as these blocks. -/
inductive Shows : Scene → List Moment → List Block → Prop
  | nil {s : Scene} : Shows s [] []
  | quiet {ds ds' : List Dispatch} {s : Scene} {m : Moment} {rest : List Moment} {blocks : List Block}
      (h : Step ds s m ds') (hquiet : m.IsQuiet) (hrest : Shows (m.pass s) rest blocks) : Shows s (m :: rest) blocks
  | write {s u : Scene} {chunk : Bytes} {change : Change} {inside rest : List Moment} {nested later : List Block}
      (ha : s.announce chunk = some (change, u)) (hinside : Shows u inside nested)
      (hrest : Shows (Moment.pass (u.along inside) (.closed change)) rest later) :
      Shows s (.took chunk :: (inside ++ .closed change :: rest))
        (nested ++ ⟨change.frame + nested.length, change.before, change.after⟩ :: later)

/-- A dispatch under way comes to its end, and those that begin meanwhile come to theirs before. -/
private theorem Unfolds.until_closed {waiting : List ListenerName} (h : Unfolds (⟨change, waiting⟩ :: ds) s l []) :
    ∃ inside after blocks, l = inside ++ .closed change :: after ∧
      Unfolds [⟨change, waiting⟩] s inside [⟨change, []⟩] ∧ Shows s inside blocks ∧
      Unfolds ds (Moment.pass (s.along inside) (.closed change)) after [] := by
  -- A dispatch within is followed to its end first, and what comes then is shorter.
  induction hn : l.length using Nat.strongRecOn generalizing change waiting ds s l with
  | ind n ih =>
    cases h with
    | @cons _ ds' _ _ m rest hstep hrest =>
      have shorter : rest.length < n := by
        rw [← hn, List.length_cons]
        omega
      have quietly {waiting' : List ListenerName} (hquiet : m.IsQuiet)
          (hfirst : Step [⟨change, waiting⟩] s m [⟨change, waiting'⟩])
          (hrest : Unfolds (⟨change, waiting'⟩ :: ds) (m.pass s) rest []) :
          ∃ inside after blocks, m :: rest = inside ++ .closed change :: after ∧
            Unfolds [⟨change, waiting⟩] s inside [⟨change, []⟩] ∧ Shows s inside blocks ∧
            Unfolds ds (Moment.pass (s.along inside) (.closed change)) after [] := by
        obtain ⟨inside, after, blocks, rfl, hinside, hshows, hafter⟩ := ih _ shorter hrest rfl
        exact ⟨m :: inside, after, blocks, rfl, .cons hfirst hinside, .quiet hfirst hquiet hshows, hafter⟩
      cases hstep with
      | did hnone => exact quietly trivial (.did hnone) hrest
      | failed => exact quietly trivial .failed hrest
      | turn => exact quietly trivial .turn hrest
      | closed => exact ⟨[], rest, [], rfl, .nil, .nil, hrest⟩
      | @took _ _ u chunk change' ha =>
        rw [pass_took ha] at hrest
        obtain ⟨within, rest', nested, rfl, hwithin, hnested, hrest'⟩ := ih _ shorter hrest rfl
        have hlater : rest'.length < n := by
          simp only [List.length_append, List.length_cons] at shorter
          omega
        obtain ⟨inside, after, later, rfl, hinside, hshows, hafter⟩ := ih _ hlater hrest' rfl
        refine ⟨.took chunk :: (within ++ .closed change' :: inside), after, _, by simp, .cons (.took ha) ?_,
          .write ha hnested hshows, ?_⟩
        · rw [pass_took ha]
          exact (hwithin.within _).append (.cons .closed hinside)
        · rwa [along_cons, pass_took ha, along_append, along_cons]

/-- A run from beginning to end. -/
private theorem Unfolds.exists_shows (h : Unfolds [] s l []) : ∃ blocks, Shows s l blocks := by
  induction hn : l.length using Nat.strongRecOn generalizing s l with
  | ind n ih =>
    cases h with
    | nil => exact ⟨[], .nil⟩
    | @cons _ ds' _ _ m rest hstep hrest =>
      have shorter : rest.length < n := by
        rw [← hn, List.length_cons]
        omega
      have quietly (hquiet : m.IsQuiet) (hstep : Step [] s m []) (hrest : Unfolds [] (m.pass s) rest []) :
          ∃ blocks, Shows s (m :: rest) blocks := by
        obtain ⟨blocks, hshows⟩ := ih _ shorter hrest rfl
        exact ⟨blocks, .quiet hstep hquiet hshows⟩
      cases hstep with
      | did hnone => exact quietly trivial (.did hnone) hrest
      | failed => exact quietly trivial .failed hrest
      | @took _ _ u chunk change ha =>
        rw [pass_took ha] at hrest
        obtain ⟨inside, after, nested, rfl, -, hnested, hafter⟩ := hrest.until_closed
        have hlater : after.length < n := by
          simp only [List.length_append, List.length_cons] at shorter
          omega
        obtain ⟨later, hshows⟩ := ih _ hlater hafter rfl
        exact ⟨_, .write ha hnested hshows⟩

private theorem along_write (ha : s.announce chunk = some (change, u)) (inside rest : List Moment) :
    s.along (.took chunk :: (inside ++ .closed change :: rest)) =
      (Moment.pass (u.along inside) (.closed change)).along rest := by
  rw [along_cons, pass_took ha, along_append, along_cons]

private theorem forall_mem_write {P : Moment → Prop} {inside rest : List Moment}
    (h : ∀ m ∈ .took chunk :: (inside ++ .closed change :: rest), P m) : (∀ m ∈ inside, P m) ∧ ∀ m ∈ rest, P m :=
  ⟨fun m hm => h m (by simp [hm]), fun m hm => h m (by simp [hm])⟩

namespace Shows

/-- Each change has one block. -/
theorem length_eq (h : Shows s l blocks) : blocks.length = (changesIn s l).length := by
  induction h with
  | nil => rfl
  | quiet hstep hquiet _ ih => rw [changesIn_quiet hstep hquiet, ih]
  | write ha _ _ ihinside ihrest =>
    rw [changesIn_write ha, List.length_append, List.length_cons, List.length_cons, List.length_append, ihinside,
      ihrest]
    omega

theorem frames_eq (h : Shows s l blocks) (hkeeps : ∀ m ∈ l, m.KeepsTerminal) :
    (s.along l).frames = s.frames + blocks.length := by
  induction h with
  | nil => rfl
  | @quiet _ _ _ m _ _ hstep hquiet _ ih =>
    have hfirst := hstep.frames_eq hquiet (hkeeps m (List.mem_cons_self ..))
    rw [along_cons, ih fun m hm => hkeeps m (List.mem_cons_of_mem _ hm), hfirst]
  | write ha _ _ ihinside ihrest =>
    obtain ⟨hinside, hrest⟩ := forall_mem_write hkeeps
    rw [along_write ha, ihrest hrest, frames_closed, ihinside hinside, (frames_announce ha).2, List.length_append,
      List.length_cons]
    omega

/-- The number of a block is that of a frame that is counted meanwhile. -/
theorem frame_mem (h : Shows s l blocks) (hkeeps : ∀ m ∈ l, m.KeepsTerminal) :
    ∀ b ∈ blocks, s.frames < b.frame ∧ b.frame ≤ s.frames + blocks.length := by
  induction h with
  | nil => simp
  | @quiet _ _ _ m _ _ hstep hquiet _ ih =>
    have hfirst := hstep.frames_eq hquiet (hkeeps m (List.mem_cons_self ..))
    rw [← hfirst]
    exact ih fun m hm => hkeeps m (List.mem_cons_of_mem _ hm)
  | @write s u _ change inside _ nested later ha hinside _ ihinside ihrest =>
    obtain ⟨hkeepsInside, hkeepsRest⟩ := forall_mem_write hkeeps
    obtain ⟨hframe, hu⟩ := frames_announce ha
    have hend := hinside.frames_eq hkeepsInside
    intro b hb
    rw [List.length_append, List.length_cons]
    rcases List.mem_append.1 hb with hb | hb
    · have := ihinside hkeepsInside b hb
      omega
    rcases List.mem_cons.1 hb with rfl | hb
    · dsimp only
      omega
    · have := ihrest hkeepsRest b hb
      rw [frames_closed] at this
      omega

end Shows

private theorem isVerbose_took (ha : s.announce chunk = some (change, u)) (hon : s.IsVerbose) : u.IsVerbose :=
  pass_took ha ▸ (@Step.took [] _ _ _ _ ha).isVerbose trivial hon

/-- A change whose listeners have been told. -/
private theorem prints_dispatch {inside : List Moment} {nested : List Block} (ha : s.announce chunk = some (change, u))
    (hinside : Shows u inside nested) (hkeeps : ∀ m ∈ inside, m.KeepsTerminal)
    (hnested : Prints u (u.along inside) nested) (hon : (u.along inside).IsVerbose) :
    Prints s (Moment.pass (u.along inside) (.closed change))
      (nested ++ [⟨change.frame + nested.length, change.before, change.after⟩]) := by
  obtain ⟨hframe, hu⟩ := frames_announce ha
  have hclosed := prints_closed hon (before_ne_after ha)
  rw [hinside.frames_eq hkeeps, hu, ← hframe] at hclosed
  exact (prints_took ha).trans (hnested.trans hclosed)

namespace Shows

/-- With the traces on, these blocks are printed. -/
theorem prints (h : Shows s l blocks) (hkeeps : ∀ m ∈ l, m.KeepsVerbose) (hon : s.IsVerbose) :
    Prints s (s.along l) blocks ∧ (s.along l).IsVerbose := by
  induction h with
  | nil => exact ⟨.of_log_eq rfl, hon⟩
  | @quiet _ _ _ m _ _ hstep hquiet _ ih =>
    have hnext := hstep.isVerbose (hkeeps m (List.mem_cons_self ..)) hon
    obtain ⟨hrest, hend⟩ := ih (fun m hm => hkeeps m (List.mem_cons_of_mem _ hm)) hnext
    exact ⟨(hstep.prints hquiet).trans hrest, hend⟩
  | @write _ _ _ change _ _ _ _ ha hinside _ ihinside ihrest =>
    obtain ⟨hkeepsInside, hkeepsRest⟩ := forall_mem_write hkeeps
    obtain ⟨hnested, honInside⟩ := ihinside hkeepsInside (isVerbose_took ha hon)
    have hown := prints_dispatch ha hinside (fun m hm => (hkeepsInside m hm).keepsTerminal) hnested honInside
    have hclosed := (@Step.closed [] _ change).isVerbose trivial honInside
    obtain ⟨hlater, hend⟩ := ihrest hkeepsRest hclosed
    rw [along_write ha, List.append_cons]
    exact ⟨hown.trans hlater, hend⟩

end Shows

/-! ### Numbers of blocks -/

private theorem oneAtATime_quiet (hquiet : m.IsQuiet) (depth : Nat) (l : List Moment) :
    OneAtATime depth (m :: l) ↔ OneAtATime depth l := by
  cases m with
  | did | turn | failed => exact Iff.rfl
  | took | closed => exact hquiet.elim

namespace Shows

/-- While listeners are told of a change, they may do anything that has no block. -/
private theorem oneAtATime_within (h : Shows s l blocks) (depth : Nat) (rest : List Moment) :
    OneAtATime (depth + 1) (l ++ rest) ↔ blocks = [] ∧ OneAtATime (depth + 1) rest := by
  induction h with
  | nil => simp
  | quiet _ hquiet _ ih => rw [List.cons_append, oneAtATime_quiet hquiet, ih]
  | write => simp [OneAtATime]

private theorem oneAtATime_write {inside rest : List Moment} {nested : List Block} (h : Shows u inside nested) :
    OneAtATime 0 (.took chunk :: (inside ++ .closed change :: rest)) ↔ nested = [] ∧ OneAtATime 0 rest :=
  (and_iff_right rfl).trans (h.oneAtATime_within 0 _)

/-- The blocks are those of the changes if listeners change no text. -/
theorem eq_blocks (h : Shows s l blocks) (hone : OneAtATime 0 l) : blocks = (changesIn s l).map Change.block := by
  induction h with
  | nil => rfl
  | quiet hstep hquiet _ ih => rw [changesIn_quiet hstep hquiet, ih ((oneAtATime_quiet hquiet ..).1 hone)]
  | @write _ u _ _ inside _ _ _ ha hinside _ _ ihrest =>
    obtain ⟨rfl, hrest⟩ := hinside.oneAtATime_write.1 hone
    have hnone : changesIn u inside = [] := List.eq_nil_of_length_eq_zero hinside.length_eq.symm
    rw [changesIn_write ha, hnone, ihrest hrest]
    rfl

/-- The blocks that are printed while listeners are told of a change and the one of the change itself have numbers
among those of the frames that are counted meanwhile, and these are one less. -/
private theorem not_nodup {nested : List Block} (h : Shows u l nested) (hkeeps : ∀ m ∈ l, m.KeepsTerminal)
    (hne : nested ≠ []) : ¬ (nested.map Block.frame ++ [u.frames + nested.length]).Nodup := by
  intro hnodup
  have hsubset : nested.map Block.frame ++ [u.frames + nested.length] ⊆ List.range' (u.frames + 1) nested.length := by
    intro n hn
    rw [List.mem_range'_1]
    rcases List.mem_append.1 hn with hn | hn
    · obtain ⟨b, hb, rfl⟩ := List.mem_map.1 hn
      have := h.frame_mem hkeeps b hb
      omega
    · have := List.length_pos_iff.2 hne
      rw [List.mem_singleton.1 hn]
      omega
  have hlength := hnodup.length_le_of_subset hsubset
  rw [List.length_append, List.length_map, List.length_range'] at hlength
  exact absurd hlength (Nat.not_succ_le_self _)

/-- No two blocks have one number exactly if listeners change no text. -/
theorem nodup_iff (h : Shows s l blocks) (hkeeps : ∀ m ∈ l, m.KeepsTerminal) :
    (blocks.map Block.frame).Nodup ↔ OneAtATime 0 l := by
  induction h with
  | nil => simp [OneAtATime]
  | @quiet _ _ _ m _ _ hstep hquiet _ ih =>
    rw [oneAtATime_quiet hquiet, ih fun m hm => hkeeps m (List.mem_cons_of_mem _ hm)]
  | @write s u _ change inside _ nested later ha hinside hrest _ ihrest =>
    obtain ⟨hkeepsInside, hkeepsRest⟩ := forall_mem_write hkeeps
    obtain ⟨hframe, hu⟩ := frames_announce ha
    rw [hinside.oneAtATime_write, ← ihrest hkeepsRest, List.map_append, List.map_cons]
    constructor
    · intro hnodup
      have hnone : nested = [] := by
        by_contra hne
        refine hinside.not_nodup hkeepsInside hne ?_
        rw [hu, ← hframe]
        exact hnodup.sublist (List.Sublist.append_left (List.singleton_sublist.2 (List.mem_cons_self ..)) _)
      subst hnone
      exact ⟨rfl, (List.nodup_cons.1 hnodup).2⟩
    · rintro ⟨rfl, hnodup⟩
      refine List.nodup_cons.2 ⟨fun hmem => ?_, hnodup⟩
      obtain ⟨b, hb, hbframe⟩ := List.mem_map.1 hmem
      have hlater := hrest.frame_mem hkeepsRest b hb
      rw [frames_closed, hinside.frames_eq hkeepsInside, hu] at hlater
      dsimp only [List.length_nil] at hbframe hlater
      omega

end Shows

/-! ### Runs -/

/-- How the blocks of a run show the change that is announced after `before`.  Its listeners are told of it `inside`,
and the changes that are made meanwhile have the blocks `nested`.  Then comes its own block, with its texts and with the
number of the last of these changes. -/
structure ShowsChange (s : Scene) (blocks : List Block) (before : List Moment) (change : Change) (u : Scene)
    (inside : List Moment) (nested : List Block) : Prop where
  told : Unfolds [⟨change, u.members⟩] u inside [⟨change, []⟩]
  nested_printed : Prints u (u.along inside) nested
  nested_length : nested.length = (changesIn u inside).length
  own : ∃ earlier later, Prints s (s.along before) earlier ∧
    blocks = earlier ++ (nested ++ [⟨change.frame + nested.length, change.before, change.after⟩] ++ later)

private theorem Unfolds.exists_showsChange {before rest : List Moment}
    (h : Unfolds [] s (before ++ .took chunk :: rest) []) (hon : s.IsVerbose)
    (hkeeps : ∀ m ∈ before ++ .took chunk :: rest, m.KeepsVerbose)
    (hprints : Prints s (s.along (before ++ .took chunk :: rest)) blocks)
    (ha : (s.along before).announce chunk = some (change, u)) :
    ∃ inside after nested, rest = inside ++ .closed change :: after ∧
      ShowsChange s blocks before change u inside nested := by
  obtain ⟨ds, hbefore, hrest⟩ := h.split_took ha
  obtain ⟨inside, after, nested, rfl, htold, hshows, hafter⟩ := hrest.until_closed
  have hkeepsInside : ∀ m ∈ inside, m.KeepsVerbose := fun m hm => hkeeps m (by simp [hm])
  have honBefore := hbefore.isVerbose (fun m hm => hkeeps m (List.mem_append_left _ hm)) hon
  obtain ⟨hnested, honInside⟩ := hshows.prints hkeepsInside (isVerbose_took ha honBefore)
  have hown := prints_dispatch ha hshows (fun m hm => (hkeepsInside m hm).keepsTerminal) hnested honInside
  obtain ⟨earlier, hearlier⟩ := hbefore.exists_prints
  obtain ⟨later, hlater⟩ := hafter.exists_prints
  have hall := hearlier.trans (hown.trans hlater)
  rw [← along_write ha, ← along_append] at hall
  exact ⟨inside, after, nested, rfl, htold, hnested, hshows.length_eq, earlier, later, hearlier, hprints.unique hall⟩

/-- With the traces on, each chunk that changes the text is shown by exactly one block, with the texts of its change.
The number is that of its change and one more for each change that was made while listeners were told of it.  So no two
blocks have one number exactly if listeners change no text, and then each block is that of its change. -/
theorem blocks_count_changes_within (room : Nat) (commands : List Command) (hs : s.Reached) (hon : s.IsVerbose)
    (hkeeps : ∀ m ∈ history room commands s, m.KeepsVerbose) :
    ∃ blocks, Prints s (carryOut room s commands) blocks ∧
      blocks.length = (changesIn s (history room commands s)).length ∧
      (∀ before m rest, history room commands s = before ++ m :: rest → (s.along before).rewrites m = true →
        ∃ chunk change u inside after nested, m = .took chunk ∧
          (s.along before).announce chunk = some (change, u) ∧ rest = inside ++ .closed change :: after ∧
          ShowsChange s blocks before change u inside nested) ∧
      ((blocks.map Block.frame).Nodup ↔ OneAtATime 0 (history room commands s)) ∧
      (OneAtATime 0 (history room commands s) → blocks = (changesIn s (history room commands s)).map Change.block) := by
  obtain ⟨hunfolds, halong⟩ := history_recorded room commands s
  obtain ⟨blocks, hshows⟩ := hunfolds.exists_shows
  obtain ⟨hprints, -⟩ := hshows.prints hkeeps hon
  refine ⟨blocks, halong ▸ hprints, hshows.length_eq, ?_, hshows.nodup_iff fun m hm => (hkeeps m hm).keepsTerminal,
    hshows.eq_blocks⟩
  intro before m rest hl hrewrites
  rw [hl] at hunfolds hkeeps hprints
  obtain ⟨ds, hbefore, hrest⟩ := hunfolds.split
  cases hrest with
  | cons hstep =>
    obtain ⟨chunk, change, u, rfl, ha⟩ := (hstep.rewrites_iff (hbefore.reached hs)).1 hrewrites
    obtain ⟨inside, after, nested, hrest, hchange⟩ := hunfolds.exists_showsChange hon hkeeps hprints ha
    exact ⟨chunk, change, u, inside, after, nested, rfl, ha, hrest, hchange⟩

/-- A listener that writes nothing whenever it is told of a letter does not disturb the numbers. -/
theorem blocks_of_two_letters :
    ∃ s blocks, carryOut maxNesting { } [.create 2 1, .setVerbose true, .listener "a" true [] [.write []],
        .subscribe (some "a") none] = s ∧
      Prints s (carryOut maxNesting s [.write [0x78], .write [0x79]]) blocks ∧
      blocks = [⟨1, [0x20, 0x20], [0x78, 0x20]⟩, ⟨2, [0x78, 0x20], [0x78, 0x79]⟩] := by
  obtain ⟨s, hs⟩ : ∃ s, carryOut maxNesting { } [.create 2 1, .setVerbose true, .listener "a" true [] [.write []],
      .subscribe (some "a") none] = s := ⟨_, rfl⟩
  have hkeeps : ∀ m ∈ history maxNesting [.write [0x78], .write [0x79]] s, m.KeepsVerbose := by
    subst hs
    decide +kernel
  obtain ⟨blocks, hprints, -, -, -, hblocks⟩ := blocks_count_changes_within maxNesting [.write [0x78], .write [0x79]]
    (hs ▸ reached_carryOut maxNesting _ : s.Reached) (by subst hs; decide +kernel) hkeeps
  refine ⟨s, blocks, hs, hprints, (hblocks ?_).trans ?_⟩ <;> subst hs <;> decide +kernel

/-- A listener writes another letter when it is told of one, and the blocks of both have the frame of the second. -/
theorem block_repeats_frame :
    ∃ s blocks, carryOut maxNesting { } [.create 2 1, .setVerbose true, .listener "a" true [[.write [0x79]]] [],
        .subscribe (some "a") none] = s ∧
      s.IsVerbose ∧ (∀ m ∈ history maxNesting [.write [0x78]] s, m.KeepsVerbose) ∧
      Prints s (carryOut maxNesting s [.write [0x78]]) blocks ∧
      (carryOut maxNesting s [.write [0x78]]).heard.map (fun call => call.2.block) =
        [⟨1, [0x20, 0x20], [0x78, 0x20]⟩, ⟨2, [0x78, 0x20], [0x78, 0x79]⟩] ∧
      blocks = [⟨2, [0x78, 0x20], [0x78, 0x79]⟩, ⟨2, [0x20, 0x20], [0x78, 0x20]⟩] := by
  obtain ⟨s, hs⟩ : ∃ s, carryOut maxNesting { } [.create 2 1, .setVerbose true,
      .listener "a" true [[.write [0x79]]] [], .subscribe (some "a") none] = s := ⟨_, rfl⟩
  refine ⟨s, _, hs, ?_, ?_, ⟨(carryOut maxNesting s [.write [0x78]]).log.drop s.log.length, ?_, rfl⟩, ?_, ?_⟩ <;>
    subst hs <;> decide +kernel

end Scene

end ScreenWatch
