import Mathlib.Data.List.Induction
import ScreenWatch.Proofs.Terminal.EventStream
import ScreenWatch.Proofs.Terminal.Turns

/-!
# The order of events

A change is announced with the next frame, but a listener hears of it when its turn comes.  Until then another listener
may write a chunk that changes the text again, and that change is told first: it overtakes the one before it.  This is
the only way in which a listener hears frames out of order (`frames_increase_unless_overtaken`); so it hears them in
order if listeners change no text.
-/

namespace ScreenWatch

namespace Scene

variable {s u : Scene} {ds ds' : List Dispatch} {l before after between past rest : List Moment} {name : ListenerName}
  {change change' : Change} {chunk chunk' : Bytes}

/-- The chunk that is taken after these moments makes the change. -/
def Announces (s : Scene) (before : List Moment) (chunk : Bytes) (change : Change) : Prop :=
  ∃ u, (s.along before).announce chunk = some (change, u)

/-- The first change is announced after the second one and before the turn at which `name` is told of the second. -/
def Overtakes (name : ListenerName) (s : Scene) (l : List Moment) (change change' : Change) : Prop :=
  ∃ before chunk' between chunk after, l = before ++ .took chunk' :: (between ++ .took chunk :: after) ∧
    Announces s before chunk' change' ∧ Announces s (before ++ .took chunk' :: between) chunk change ∧
    .turn name change' true ∈ after

/-! ### Two places in a list -/

section

variable {α : Type} {a a' b b' : List α} {x x' : α}

/-- Two places in a list are the same, or one of them comes first. -/
private theorem places_cases (h : a ++ x :: b = a' ++ x' :: b') :
    (a = a' ∧ x = x' ∧ b = b') ∨ (∃ mid, a' = a ++ x :: mid ∧ b = mid ++ x' :: b') ∨
      ∃ mid, a = a' ++ x' :: mid ∧ b' = mid ++ x :: b := by
  rcases List.append_eq_append_iff.1 h with ⟨mid, rfl, hmid⟩ | ⟨mid, rfl, hmid⟩
  · cases mid with
    | nil =>
      obtain ⟨rfl, rfl⟩ := List.cons.inj hmid
      exact .inl ⟨(List.append_nil _).symm, rfl, rfl⟩
    | cons y mid =>
      obtain ⟨rfl, rfl⟩ := List.cons.inj hmid
      exact .inr (.inl ⟨mid, rfl, rfl⟩)
  · cases mid with
    | nil =>
      obtain ⟨rfl, rfl⟩ := List.cons.inj hmid
      exact .inl ⟨List.append_nil _, rfl, rfl⟩
    | cons y mid =>
      obtain ⟨rfl, rfl⟩ := List.cons.inj hmid
      exact .inr (.inr ⟨mid, rfl, rfl⟩)

private theorem pairwise_of_places {R : α → α → Prop} {l : List α}
    (h : ∀ a x b x' c, l = a ++ x :: (b ++ x' :: c) → R x x') : l.Pairwise R := by
  induction l with
  | nil => exact .nil
  | cons x l ih =>
    refine .cons (fun x' hx' => ?_) (ih fun a y b y' c hl => h (x :: a) y b y' c (congrArg (x :: ·) hl))
    obtain ⟨b, c, rfl⟩ := List.append_of_mem hx'
    exact h [] x b x' c rfl

end

/-! ### When changes are announced -/

/-- The changes of which listeners are being told have been announced. -/
private theorem Unfolds.announced (h : Unfolds [] s l ds) : ∀ d ∈ ds, ∃ before chunk after,
    l = before ++ .took chunk :: after ∧ Announces s before chunk d.change := by
  induction l using List.reverseRecOn generalizing ds with
  | nil =>
    cases h
    simp
  | append_singleton l m ih =>
    obtain ⟨ds', hl, hstep⟩ := h.last
    have earlier {change : Change} (h : ∃ before chunk after, l = before ++ .took chunk :: after ∧
        Announces s before chunk change) : ∃ before chunk after, l ++ [m] = before ++ .took chunk :: after ∧
        Announces s before chunk change := by
      obtain ⟨before, chunk, after, rfl, ha⟩ := h
      exact ⟨before, chunk, after ++ [m], by simp, ha⟩
    intro d hd
    cases hstep with
    | did | failed => exact earlier (ih hl d hd)
    | @took _ _ u chunk change ha =>
      rcases List.mem_cons.1 hd with rfl | hd
      · exact ⟨l, chunk, [], rfl, u, ha⟩
      · exact earlier (ih hl d hd)
    | @turn _ _ change name waiting =>
      rcases List.mem_cons.1 hd with rfl | hd
      · exact earlier (ih hl ⟨change, name :: waiting⟩ (List.mem_cons_self ..))
      · exact earlier (ih hl d (List.mem_cons_of_mem _ hd))
    | closed => exact earlier (ih hl d (List.mem_cons_of_mem _ hd))

private theorem Unfolds.announced_turn {called : Bool} (h : Unfolds [] s (past ++ .turn name change called :: rest) ds) :
    ∃ before chunk after, past = before ++ .took chunk :: after ∧ Announces s before chunk change := by
  obtain ⟨ds', hpast, hrest⟩ := h.split
  cases hrest with
  | cons hstep _ =>
    cases hstep with
    | turn => exact hpast.announced ⟨change, _⟩ (List.mem_cons_self ..)

/-- A change that is announced later has a higher frame. -/
private theorem Unfolds.frame_lt (h : Unfolds ds s (before ++ .took chunk :: between) ds')
    (hkeeps : ∀ m ∈ before ++ .took chunk :: between, m.KeepsTerminal) (ha : Announces s before chunk change)
    (ha' : Announces s (before ++ .took chunk :: between) chunk' change') : change.frame < change'.frame := by
  obtain ⟨u, hu⟩ := ha
  obtain ⟨u', hu'⟩ := ha'
  obtain ⟨_, -, hlater⟩ := h.split_took hu
  have hle := hlater.frames_le fun m hm => hkeeps m (List.mem_append_right _ (List.mem_cons_of_mem _ hm))
  have hend : s.along (before ++ .took chunk :: between) = u.along between := by
    rw [along_append, along_cons, pass_took hu]
  rw [hend] at hu'
  have hframe := frames_announce hu
  have hframe' := frames_announce hu'
  omega

/-- A change that overtakes another one has the higher frame. -/
private theorem Overtakes.frame_lt (h : Overtakes name s l change change') (hl : Unfolds [] s l ds)
    (hkeeps : ∀ m ∈ l, m.KeepsTerminal) : change'.frame < change.frame := by
  obtain ⟨before, chunk', between, chunk, after, rfl, ha', ha, -⟩ := h
  rw [← List.cons_append, ← List.append_assoc] at hl hkeeps
  obtain ⟨_, hfirst, -⟩ := hl.split
  exact hfirst.frame_lt (fun m hm => hkeeps m (List.mem_append_left _ hm)) ha' ha

/-! ### Turns of one listener -/

private theorem Announces.unique (h : Announces s before chunk change) (h' : Announces s before chunk change') :
    change = change' := by
  obtain ⟨u, hu⟩ := h
  obtain ⟨u', hu'⟩ := h'
  rw [hu] at hu'
  exact (Prod.mk.inj (Option.some.inj hu')).1

private theorem turnsFor_turn (called : Bool) :
    turnsFor change (past ++ .turn name change called :: rest) = turnsFor change past ++ name :: turnsFor change rest := by
  have htold : turnFor? change (.turn name change called) = some name := if_pos rfl
  unfold turnsFor
  rw [List.filterMap_append, List.filterMap_cons_some htold]

/-- Nobody has two turns to be told of one change. -/
private theorem Unfolds.turn_once {called called' : Bool}
    (h : Unfolds [] s (past ++ .turn name change called :: (between ++ .turn name change called' :: rest)) [])
    (hkeeps : ∀ m ∈ past ++ .turn name change called :: (between ++ .turn name change called' :: rest),
      m.KeepsTerminal)
    (hnodup : s.members.Nodup) : False := by
  have hturns : (turnsFor change
      (past ++ .turn name change called :: (between ++ .turn name change called' :: rest))).Nodup := by
    obtain ⟨before, chunk, after, rfl, u, ha⟩ := h.announced_turn
    rw [List.append_assoc, List.cons_append] at h hkeeps ⊢
    rw [h.turnsFor_eq hkeeps ha, ← pass_took ha, (sameBooks_took ha).members_eq]
    obtain ⟨_, hbefore, -⟩ := h.split
    exact hbefore.nodup hnodup
  rw [turnsFor_turn, turnsFor_turn] at hturns
  obtain ⟨-, hlater, -⟩ := List.nodup_append.1 hturns
  exact (List.nodup_cons.1 hlater).1 (by simp)

/-- Of two events that a listener hears one after the other, the second one has the higher frame unless the first one
has overtaken it. -/
private theorem Unfolds.heard_pair (h : Unfolds [] s l []) (hkeeps : ∀ m ∈ l, m.KeepsTerminal)
    (hnodup : s.members.Nodup)
    (hl : l = past ++ .turn name change true :: (between ++ .turn name change' true :: rest)) :
    change.frame ≠ change'.frame ∧ (change'.frame < change.frame ↔ Overtakes name s l change change') := by
  have hovertakes (hover : Overtakes name s l change change') := hover.frame_lt h hkeeps
  have hsecond : l = (past ++ .turn name change true :: between) ++ .turn name change' true :: rest := by
    rw [hl, List.append_assoc, List.cons_append]
  obtain ⟨before, chunk, after, hpast, ha⟩ := (hl ▸ h).announced_turn
  obtain ⟨before', chunk', after', hpast', ha'⟩ := (hsecond ▸ h).announced_turn
  have hplace : l = before ++ .took chunk ::
      (after ++ .turn name change true :: (between ++ .turn name change' true :: rest)) := by
    rw [hl, hpast, List.append_assoc, List.cons_append]
  have hplace' : l = before' ++ .took chunk' :: (after' ++ .turn name change' true :: rest) := by
    rw [hsecond, hpast', List.append_assoc, List.cons_append]
  rcases places_cases (hplace.symm.trans hplace') with ⟨rfl, hchunk, -⟩ | ⟨mid, rfl, hmid⟩ | ⟨mid, rfl, hmid⟩
  · -- One change, of which the listener would have two turns to be told.
    obtain rfl := Moment.took.inj hchunk
    obtain rfl := ha.unique ha'
    exact ((hl ▸ h).turn_once (hl ▸ hkeeps) hnodup).elim
  · -- The first one is announced first.
    rw [hplace'] at h hkeeps
    obtain ⟨_, hfirst, -⟩ := h.split
    have hlt := hfirst.frame_lt (fun m hm => hkeeps m (List.mem_append_left _ hm)) ha ha'
    exact ⟨by omega, fun h => by omega, hovertakes⟩
  · -- The second one is announced first, and the listener is told of it after the first one.
    have hover : Overtakes name s l change change' := by
      rw [List.append_assoc, List.cons_append] at hplace
      exact ⟨before', chunk', mid, chunk, _, hplace, ha', ha, by simp⟩
    have hlt := hovertakes hover
    exact ⟨by omega, fun _ => hover, fun _ => hlt⟩

/-! ### Listeners that change no text -/

private theorem OneAtATime.drop (h : Unfolds ds s l ds') (hone : OneAtATime ds.length (l ++ rest)) :
    OneAtATime ds'.length rest := by
  induction h with
  | nil => exact hone
  | cons hstep _ ih => exact ih (hone.step hstep).2

/-- Without dispatches within dispatches no change overtakes another one. -/
private theorem Unfolds.not_overtakes (h : Unfolds [] s l []) (hkeeps : ∀ m ∈ l, m.KeepsTerminal)
    (hone : OneAtATime 0 l) : ¬ Overtakes name s l change change' := by
  intro hover
  have hlt := hover.frame_lt h hkeeps
  obtain ⟨before, chunk', between, chunk, after, hl, -, ⟨u, ha⟩, hturn⟩ := hover
  rw [← List.cons_append, ← List.append_assoc] at hl
  obtain ⟨ds, hfirst, hafter⟩ := (hl ▸ h).split_took ha
  -- When the first change is announced, nobody waits to be told of the second one.
  have hdepth : OneAtATime ds.length (.took chunk :: after) := by
    rw [hl] at hone
    exact OneAtATime.drop hfirst hone
  obtain rfl : ds = [] := List.eq_nil_of_length_eq_zero hdepth.1
  have hframe := frames_announce ha
  have hnone := hafter.turnsFor_append (fun m hm => hkeeps m (by simp [hl, hm])) change' (by omega)
  have hne : change ≠ change' := by
    rintro rfl
    omega
  rw [waitingFor_cons, if_neg hne] at hnone
  have hname : name ∈ turnsFor change' after := List.mem_filterMap.2 ⟨_, hturn, if_pos rfl⟩
  rw [(List.append_eq_nil_iff.1 hnone).1] at hname
  cases hname

/-- A listener hears each frame once, and of two frames the higher one first exactly if its change has overtaken the
other one; if listeners change no text, it hears the frames in order. -/
theorem frames_increase_unless_overtaken (name : ListenerName) (room : Nat) (commands : List Command)
    (hnodup : s.members.Nodup) (hkeeps : ∀ m ∈ history room commands s, m.KeepsTerminal) :
    ∃ new, (carryOut room s commands).heard = s.heard ++ new ∧
      (eventsOf name new).Pairwise (fun e e' => e.frame ≠ e'.frame ∧
        (e'.frame < e.frame ↔ Overtakes name s (history room commands s) e e')) ∧
      (OneAtATime 0 (history room commands s) → (eventsOf name new).Pairwise fun e e' => e.frame < e'.frame) := by
  obtain ⟨hunfolds, halong⟩ := history_recorded room commands s
  have hheard := hunfolds.heard_eq
  rw [halong] at hheard
  have hpairs : (eventsOf name (callsIn (history room commands s))).Pairwise fun e e' => e.frame ≠ e'.frame ∧
      (e'.frame < e.frame ↔ Overtakes name s (history room commands s) e e') := by
    unfold eventsOf callsIn
    rw [List.pairwise_map, List.pairwise_filter, List.pairwise_filterMap]
    refine pairwise_of_places fun past m between m' rest hl call hcall call' hcall' hname hname' => ?_
    obtain ⟨listener, change⟩ := call
    obtain ⟨listener', change'⟩ := call'
    obtain rfl : listener = name := of_decide_eq_true hname
    obtain rfl : listener' = listener := of_decide_eq_true hname'
    rw [eq_turn_of_callIn? hcall, eq_turn_of_callIn? hcall'] at hl
    exact hunfolds.heard_pair hkeeps hnodup hl
  refine ⟨_, hheard, hpairs, fun hone => hpairs.imp fun {e e'} h => ?_⟩
  obtain ⟨hne, hiff⟩ := h
  have hge : ¬ e'.frame < e.frame := fun hlt => hunfolds.not_overtakes hkeeps hone (hiff.1 hlt)
  omega

/-- The first of two listeners writes another letter when it is told of one, and the second one is told of that letter
first. -/
theorem frames_increase_unless_overtaken_by_letter :
    ∃ s e e', carryOut maxNesting { } [.create 2 1, .listener "a" true [[.write [0x79]]] [], .subscribe (some "a") none,
        .subscribe (some "b") none] = s ∧
      eventsOf "b" (carryOut maxNesting s [.write [0x78]]).heard = [e, e'] ∧ e.frame = 2 ∧ e'.frame = 1 ∧
      Overtakes "b" s (history maxNesting [.write [0x78]] s) e e' := by
  obtain ⟨s, hs⟩ : ∃ s, carryOut maxNesting { } [.create 2 1, .listener "a" true [[.write [0x79]]] [],
      .subscribe (some "a") none, .subscribe (some "b") none] = s := ⟨_, rfl⟩
  obtain ⟨new, hheard, hpairs, -⟩ := frames_increase_unless_overtaken "b" maxNesting [.write [0x78]]
    (hs ▸ nodup_carryOut maxNesting _) (by subst hs; decide +kernel)
  have hframes : (eventsOf "b" (carryOut maxNesting s [.write [0x78]]).heard).map Change.frame = [2, 1] := by
    subst hs
    decide +kernel
  have hstart : s.heard = [] := by
    subst hs
    decide +kernel
  rw [hstart, List.nil_append] at hheard
  obtain ⟨e, rest, he, hframe, hrest⟩ := List.map_eq_cons_iff.1 hframes
  obtain ⟨e', hrest, hframe'⟩ := List.map_eq_singleton_iff.1 hrest
  rw [← hheard, he, hrest] at hpairs
  have hover := ((List.pairwise_cons.1 hpairs).1 e' (List.mem_singleton_self e')).2.1 (by omega)
  exact ⟨s, e, e', hs, hrest ▸ he, hframe, hframe', hover⟩

/-- The second listener is told of the other letter first, and hears the second frame before the first one. -/
theorem hears_frames_out_of_order :
    ∃ s, carryOut maxNesting { } [.create 2 1, .listener "a" true [[.write [0x79]]] [], .subscribe (some "a") none,
        .subscribe (some "b") none] = s ∧
      (∀ m ∈ history maxNesting [.write [0x78]] s, m.KeepsTerminal) ∧
      (eventsOf "b" (carryOut maxNesting s [.write [0x78]]).heard).map Change.frame = [2, 1] ∧
      ¬ (eventsOf "b" (carryOut maxNesting s [.write [0x78]]).heard).Pairwise fun e e' => e.frame < e'.frame := by
  refine ⟨_, rfl, ?_, ?_, ?_⟩ <;> decide +kernel

end Scene

end ScreenWatch
