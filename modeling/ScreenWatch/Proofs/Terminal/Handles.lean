import ScreenWatch.Proofs.Terminal.Moments

/-!
# Handles and registrations

A registration begins when a listener that is not registered is subscribed, and ends when it is removed or the terminal
goes; a handle is given out for the registration that is in force then.  The scene does not write down registrations: a
handle has the name of the listener in it and the generation of the terminal.  So a `Ledger` is kept beside the history,
in which registrations have numbers, and it is shown what handles do to them.

A handle whose registration is in force ends this one and no other, and one whose registration has ended does nothing
(`handle_ends_own_registration`), unless the listener has been registered anew: then a handle that was never used
itself is taken for one of the later registration (`stale_handle_ends_later_registration`).
-/

namespace ScreenWatch

/-- A time for which a listener is registered.  Registrations are numbered in the order in which they begin. -/
structure Registration where
  subscription : Subscription
  number : Nat
  deriving DecidableEq

/-- Which registrations are in force, and for which one each handle was given out. -/
structure Ledger where
  inForce : List Registration := []
  next : Nat := 0
  given : List (HandleName × Registration) := []

namespace Scene

/-- The terminal of the subscription exists, and the listener is registered there. -/
def Registers (s : Scene) (subscription : Subscription) : Prop :=
  s.generation = subscription.generation ∧ subscription.listener ∈ s.members

instance (s : Scene) : DecidablePred s.Registers := fun _ => inferInstanceAs (Decidable (_ ∧ _))

end Scene

namespace Ledger

/-- The registrations that have not ended in the scene `s`. -/
def keep (ledger : Ledger) (s : Scene) : Ledger :=
  { ledger with inForce := ledger.inForce.filter fun r => s.Registers r.subscription }

/-- A registration begins. -/
def enter (ledger : Ledger) (subscription : Subscription) : Ledger :=
  { ledger with
    inForce := ledger.inForce ++ [⟨subscription, ledger.next⟩],
    next := ledger.next + 1 }

/-- The registration of a subscription that is in force. -/
def present? (ledger : Ledger) (subscription : Subscription) : Option Registration :=
  ledger.inForce.find? fun r => r.subscription = subscription

/-- A handle is given out for a registration, or for none. -/
def give (ledger : Ledger) (handle : HandleName) (registration : Option Registration) : Ledger :=
  { ledger with given := Scene.assign handle registration ledger.given }

/-- The ledger after a moment in the scene `s`. -/
def pass (ledger : Ledger) (s : Scene) (m : Moment) : Ledger :=
  let kept := ledger.keep (m.pass s)
  match m with
  | .did (.subscribe (some name) handle) =>
    let subscription := ⟨s.generation, name⟩
    let entered :=
      if ¬ s.Registers subscription ∧ (m.pass s).Registers subscription then kept.enter subscription else kept
    match handle with
    | some handle => entered.give handle (entered.present? subscription)
    | none => entered
  | .did (.copyHandle source target) => kept.give target (ledger.given.lookup source)
  | _ => kept

/-- The ledger after moments from the scene `s` on. -/
def along (ledger : Ledger) : Scene → List Moment → Ledger
  | _, [] => ledger
  | s, m :: rest => (ledger.pass s m).along (m.pass s) rest

end Ledger

namespace Scene

variable {s t : Scene} {ledger : Ledger} {handle : HandleName}

/-! ### Association lists -/

private theorem lookup_cons_ite {α : Type} (key key' : String) (a : α) (entries : List (String × α)) :
    ((key, a) :: entries).lookup key' = if key' = key then some a else entries.lookup key' := by
  rw [List.lookup_cons]
  by_cases h : key' = key
  · rw [if_pos h, beq_iff_eq.2 h]
  · rw [if_neg h, beq_false_of_ne h]

private theorem lookup_others {α : Type} (key key' : String) (entries : List (String × α)) :
    (entries.filter fun e => e.1 ≠ key).lookup key' = if key' = key then none else entries.lookup key' := by
  induction entries with
  | nil => split <;> rfl
  | cons e entries ih =>
    obtain ⟨name, a⟩ := e
    rw [List.filter_cons, lookup_cons_ite]
    by_cases hname : name = key
    · subst hname
      rw [if_neg (by simp), ih]
      split <;> rfl
    · rw [if_pos (by simpa using hname), lookup_cons_ite, ih]
      by_cases hkey : key' = key
      · subst hkey
        rw [if_neg (Ne.symm hname), if_pos rfl, if_pos rfl]
      · rw [if_neg hkey, if_neg hkey]

theorem lookup_assign {α : Type} (key key' : String) (value : Option α) (entries : List (String × α)) :
    (assign key value entries).lookup key' = if key' = key then value else entries.lookup key' := by
  unfold assign
  cases value with
  | none => exact lookup_others ..
  | some v =>
    dsimp only
    rw [lookup_cons_ite, lookup_others]
    by_cases hkey : key' = key
    · rw [if_pos hkey, if_pos hkey]
    · rw [if_neg hkey, if_neg hkey, if_neg hkey]

theorem assign_none_of_lookup {α : Type} {key : String} {entries : List (String × α)}
    (h : entries.lookup key = none) : assign key none entries = entries := by
  refine List.filter_eq_self.2 ?_
  intro e he
  have hkey := List.lookup_eq_none_iff.1 h e he
  rw [bne_iff_ne] at hkey
  exact decide_eq_true (Ne.symm hkey)

/-! ### Who is registered -/

theorem isInForce_iff (s : Scene) (subscription : Subscription) :
    s.isInForce subscription = true ↔ s.Registers subscription := by
  unfold isInForce Registers members
  cases s.terminal with
  | none => simp
  | some t => simp [Registry.contains]

theorem Registers.congr {subscription : Subscription} (h : SameBooks s t) :
    t.Registers subscription ↔ s.Registers subscription := by
  unfold Registers
  rw [h.generation_eq, h.members_eq]

theorem members_removing (s : Scene) (name : ListenerName) : (s.removing name).members = s.members.erase name := by
  unfold removing editing members
  cases s.terminal <;> rfl

theorem removing_of_not_mem {name : ListenerName} (h : name ∉ s.members) : s.removing name = s := by
  unfold removing editing
  obtain ⟨now, terminal, generation, listeners, handles, heard, log⟩ := s
  cases terminal with
  | none => rfl
  | some t =>
    have hsame : t.registry.remove name = t.registry := congrArg Registry.mk (List.erase_of_not_mem h)
    simp only [Option.map_some, hsame]

theorem mem_members_adding {name other : ListenerName} :
    other ∈ (s.adding name).members ↔ other ∈ s.members ∨ s.terminal.isSome ∧ other = name := by
  unfold adding editing members
  cases s.terminal with
  | none => simp
  | some t =>
    dsimp only [Option.map_some, Registry.add]
    by_cases hname : t.registry.contains name
    · have hmem : name ∈ t.registry.members := by simpa [Registry.contains] using hname
      rw [if_pos hname]
      constructor
      · exact .inl
      · rintro (h | ⟨-, rfl⟩)
        · exact h
        · exact hmem
    · rw [if_neg hname]
      simp

theorem registers_adding {name : ListenerName} {subscription : Subscription} :
    (s.adding name).Registers subscription ↔
      s.Registers subscription ∨ s.terminal.isSome ∧ subscription = ⟨s.generation, name⟩ := by
  obtain ⟨generation, listener⟩ := subscription
  unfold Registers
  rw [mem_members_adding, Subscription.mk.injEq]
  show s.generation = generation ∧ _ ↔ _
  constructor
  · rintro ⟨hgeneration, hmem | ⟨hsome, rfl⟩⟩
    · exact .inl ⟨hgeneration, hmem⟩
    · exact .inr ⟨hsome, hgeneration.symm, rfl⟩
  · rintro (⟨hgeneration, hmem⟩ | ⟨hsome, rfl, rfl⟩)
    · exact ⟨hgeneration, .inl hmem⟩
    · exact ⟨rfl, .inr ⟨hsome, rfl⟩⟩

end Scene

/-! ### The ledger is right -/

namespace Ledger

open Scene

variable {s t : Scene} {ledger : Ledger} {handle : HandleName}

/-- The ledger is right about the scene: its registrations in force are those of the registered listeners, one each,
and a handle is for its registration, or void when that has ended. -/
structure Agrees (ledger : Ledger) (s : Scene) : Prop where
  nodup : s.members.Nodup
  inForce_iff : ∀ subscription, (∃ r ∈ ledger.inForce, r.subscription = subscription) ↔ s.Registers subscription
  unique : ∀ r ∈ ledger.inForce, ∀ r' ∈ ledger.inForce, r.subscription = r'.subscription → r = r'
  inForce_lt : ∀ r ∈ ledger.inForce, r.number < ledger.next
  given_lt : ∀ handle r, ledger.given.lookup handle = some r → r.number < ledger.next
  held : ∀ handle r, ledger.given.lookup handle = some r →
    s.handles.lookup handle = some r.subscription ∨ s.handles.lookup handle = none ∧ r ∉ ledger.inForce

theorem mem_keep {r : Registration} :
    r ∈ (ledger.keep t).inForce ↔ r ∈ ledger.inForce ∧ t.Registers r.subscription := by
  unfold keep
  rw [List.mem_filter, decide_eq_true_iff]

theorem present?_eq {subscription : Subscription} {r : Registration} (h : ledger.present? subscription = some r) :
    r ∈ ledger.inForce ∧ r.subscription = subscription := by
  unfold present? at h
  have hsame := List.find?_some h
  exact ⟨List.mem_of_find?_eq_some h, of_decide_eq_true hsame⟩

namespace Agrees

/-- Registrations may end, and handles may become void when theirs has. -/
theorem keep (h : ledger.Agrees s) (hnodup : t.members.Nodup)
    (hregisters : ∀ subscription, t.Registers subscription → s.Registers subscription)
    (hheld : ∀ handle r, ledger.given.lookup handle = some r → t.handles.lookup handle = s.handles.lookup handle ∨
      t.handles.lookup handle = none ∧ ¬ t.Registers r.subscription) : (ledger.keep t).Agrees t := by
  refine ⟨hnodup, ?_, ?_, ?_, h.given_lt, ?_⟩
  · intro subscription
    constructor
    · rintro ⟨r, hr, rfl⟩
      exact (mem_keep.1 hr).2
    · intro ht
      obtain ⟨r, hr, rfl⟩ := (h.inForce_iff subscription).2 (hregisters subscription ht)
      exact ⟨r, mem_keep.2 ⟨hr, ht⟩, rfl⟩
  · intro r hr r' hr'
    exact h.unique r (mem_keep.1 hr).1 r' (mem_keep.1 hr').1
  · intro r hr
    exact h.inForce_lt r (mem_keep.1 hr).1
  · intro handle r hr
    rcases hheld handle r hr with hsame | ⟨hvoid, hended⟩
    · rw [hsame]
      rcases h.held handle r hr with hheld | ⟨hvoid, hended⟩
      · exact .inl hheld
      · exact .inr ⟨hvoid, fun hr' => hended (mem_keep.1 hr').1⟩
    · exact .inr ⟨hvoid, fun hr' => hended (mem_keep.1 hr').2⟩

/-- A registration begins in `t`. -/
theorem enter (h : ledger.Agrees s) {subscription : Subscription} (hnew : ¬ s.Registers subscription)
    (hnodup : t.members.Nodup) (hhandles : t.handles = s.handles)
    (hregisters : ∀ other, t.Registers other ↔ s.Registers other ∨ other = subscription) :
    (ledger.enter subscription).Agrees t := by
  have hmem {r : Registration} : r ∈ (ledger.enter subscription).inForce ↔
      r ∈ ledger.inForce ∨ r = ⟨subscription, ledger.next⟩ := by
    unfold Ledger.enter
    rw [List.mem_append, List.mem_singleton]
  have hother {r : Registration} (hr : r ∈ ledger.inForce) : r.subscription ≠ subscription := by
    rintro rfl
    exact hnew ((h.inForce_iff _).1 ⟨r, hr, rfl⟩)
  refine ⟨hnodup, ?_, ?_, ?_, ?_, ?_⟩
  · intro other
    rw [hregisters, ← h.inForce_iff]
    constructor
    · rintro ⟨r, hr, rfl⟩
      rcases hmem.1 hr with hr | rfl
      · exact .inl ⟨r, hr, rfl⟩
      · exact .inr rfl
    · rintro (⟨r, hr, rfl⟩ | rfl)
      · exact ⟨r, hmem.2 (.inl hr), rfl⟩
      · exact ⟨_, hmem.2 (.inr rfl), rfl⟩
  · intro r hr r' hr' hsame
    rcases hmem.1 hr with hr | rfl <;> rcases hmem.1 hr' with hr' | rfl
    · exact h.unique r hr r' hr' hsame
    · exact absurd hsame (hother hr)
    · exact absurd hsame.symm (hother hr')
    · rfl
  · intro r hr
    rcases hmem.1 hr with hr | rfl
    · exact Nat.lt_succ_of_lt (h.inForce_lt r hr)
    · exact Nat.lt_succ_self _
  · intro handle r hr
    exact Nat.lt_succ_of_lt (h.given_lt handle r hr)
  · intro handle r hr
    rw [hhandles]
    rcases h.held handle r hr with hheld | ⟨hvoid, hended⟩
    · exact .inl hheld
    · refine .inr ⟨hvoid, fun hr' => ?_⟩
      -- The number of the new registration is not one that was given out before.
      rcases hmem.1 hr' with hr' | rfl
      · exact hended hr'
      · exact Nat.lt_irrefl _ (h.given_lt handle _ hr)

/-- A handle is given out. -/
theorem give (h : ledger.Agrees s) (handle : HandleName) (registration : Option Registration)
    (subscription : Option Subscription) (hgiven : ∀ r, registration = some r → r.number < ledger.next ∧
      (subscription = some r.subscription ∨ subscription = none ∧ r ∉ ledger.inForce)) :
    (ledger.give handle registration).Agrees { s with handles := assign handle subscription s.handles } := by
  have hlookup (other : HandleName) : (ledger.give handle registration).given.lookup other =
      if other = handle then registration else ledger.given.lookup other := lookup_assign ..
  refine ⟨h.nodup, h.inForce_iff, h.unique, h.inForce_lt, ?_, ?_⟩
  · intro other r hr
    rw [hlookup] at hr
    split at hr
    · exact (hgiven r hr).1
    · exact h.given_lt other r hr
  · intro other r hr
    rw [hlookup] at hr
    dsimp only
    rw [lookup_assign]
    split at hr
    · next hsame =>
      rw [if_pos hsame]
      exact (hgiven r hr).2
    · next hother =>
      rw [if_neg hother]
      exact h.held other r hr

/-- What is not about registrations and handles leaves the ledger right. -/
private theorem same (h : ledger.Agrees s) (hbooks : SameBooks s t) : (ledger.keep t).Agrees t := by
  refine h.keep (hbooks.members_eq ▸ h.nodup) (fun _ => (Registers.congr hbooks).1) ?_
  intro handle r _
  rw [hbooks.handles_eq]
  exact .inl rfl

/-- When the terminal goes, or another one comes, all registrations end. -/
private theorem gone (h : ledger.Agrees s) (hmembers : t.members = []) (hhandles : t.handles = s.handles) :
    (ledger.keep t).Agrees t := by
  refine h.keep (hmembers ▸ .nil) ?_ ?_
  · intro subscription ht
    have hmem := ht.2
    rw [hmembers] at hmem
    cases hmem
  · intro handle r _
    rw [hhandles]
    exact .inl rfl

private theorem unlisten (h : ledger.Agrees s) (name : ListenerName) :
    (ledger.keep (s.removing name)).Agrees (s.removing name) := by
  have hmembers := members_removing s name
  refine h.keep (hmembers ▸ h.nodup.erase name) ?_ (fun _ _ _ => .inl rfl)
  intro subscription ht
  exact ⟨ht.1, List.mem_of_mem_erase (hmembers ▸ ht.2)⟩

private theorem unsubscribe (h : ledger.Agrees s) {handle : HandleName} {subscription : Subscription}
    (hhandle : s.handles.lookup handle = some subscription) :
    (ledger.keep (Moment.pass s (.did (.unsubscribe handle)))).Agrees (Moment.pass s (.did (.unsubscribe handle))) := by
  rw [pass_unsubscribe hhandle]
  -- The handle is void, and the registration it was for has ended; the other handles are left alone.
  have hheld {u : Scene} (hhandles : u.handles = assign handle none s.handles)
      (hended : ¬ u.Registers subscription) (other : HandleName) (r : Registration)
      (hr : ledger.given.lookup other = some r) : u.handles.lookup other = s.handles.lookup other ∨
        u.handles.lookup other = none ∧ ¬ u.Registers r.subscription := by
    rw [hhandles, lookup_assign]
    by_cases hother : other = handle
    · subst hother
      rw [if_pos rfl]
      rcases h.held other r hr with hheld | ⟨hvoid, -⟩
      · rw [hhandle] at hheld
        obtain rfl := Option.some.inj hheld
        exact .inr ⟨rfl, hended⟩
      · rw [hhandle] at hvoid
        cases hvoid
    · rw [if_neg hother]
      exact .inl rfl
  by_cases hgeneration : s.generation = subscription.generation
  · rw [if_pos hgeneration]
    have hmembers := members_removing s subscription.listener
    refine h.keep (t := { s.removing subscription.listener with handles := assign handle none s.handles })
      (hmembers ▸ h.nodup.erase _) ?_ (hheld rfl ?_)
    · intro other ht
      exact ⟨ht.1, List.mem_of_mem_erase (hmembers ▸ ht.2)⟩
    · intro ht
      have hmem : subscription.listener ∈ (s.removing subscription.listener).members := ht.2
      rw [hmembers, h.nodup.mem_erase_iff] at hmem
      exact hmem.1 rfl
  · rw [if_neg hgeneration]
    exact h.keep (t := { s with handles := assign handle none s.handles }) h.nodup (fun _ ht => ht)
      (hheld rfl fun ht => hgeneration ht.1)

/-- Nobody stops being registered when a listener is added. -/
private theorem keep_adding (h : ledger.Agrees s) (name : ListenerName) : ledger.keep (s.adding name) = ledger := by
  have hall : ledger.inForce.filter (fun r => (s.adding name).Registers r.subscription) = ledger.inForce := by
    refine List.filter_eq_self.2 ?_
    intro r hr
    exact decide_eq_true (registers_adding.2 (.inl ((h.inForce_iff _).1 ⟨r, hr, rfl⟩)))
  unfold Ledger.keep
  rw [hall]

private theorem adding (h : ledger.Agrees s) (name : ListenerName) :
    (if ¬ s.Registers ⟨s.generation, name⟩ ∧ (s.adding name).Registers ⟨s.generation, name⟩
      then ledger.enter ⟨s.generation, name⟩ else ledger).Agrees (s.adding name) := by
  have hnodup := nodup_editing h.nodup fun _ h => Registry.nodup_add h name
  split
  · next hbegins =>
    obtain ⟨hnew, hadded⟩ := hbegins
    have hsome := (registers_adding.1 hadded).resolve_left hnew
    refine h.enter hnew hnodup rfl ?_
    intro other
    rw [registers_adding]
    exact or_congr_right (and_iff_right hsome.1)
  · next hnothing =>
    have hshrink : (ledger.keep (s.adding name)).Agrees (s.adding name) := by
      refine h.keep hnodup ?_ (fun _ _ _ => .inl rfl)
      intro other hother
      rcases registers_adding.1 hother with hold | ⟨-, rfl⟩
      · exact hold
      · exact Decidable.of_not_not fun hnew => hnothing ⟨hnew, hother⟩
    rwa [h.keep_adding] at hshrink

private theorem subscribe (h : ledger.Agrees s) (name : ListenerName) (handle : Option HandleName) :
    (ledger.pass s (.did (.subscribe (some name) handle))).Agrees
      (Moment.pass s (.did (.subscribe (some name) handle))) := by
  have hkeep : ledger.keep (Moment.pass s (.did (.subscribe (some name) handle))) = ledger := by
    rw [pass_subscribe]
    exact h.keep_adding name
  have hregisters : (Moment.pass s (.did (.subscribe (some name) handle))).Registers ⟨s.generation, name⟩ ↔
      (s.adding name).Registers ⟨s.generation, name⟩ := by
    rw [pass_subscribe]
    exact Iff.rfl
  have hadding := h.adding name
  unfold Ledger.pass
  dsimp only
  simp only [hkeep, hregisters]
  rw [pass_subscribe]
  cases handle with
  | none => exact hadding
  | some handle =>
    refine hadding.give handle _ (some ⟨s.generation, name⟩) ?_
    intro r hr
    obtain ⟨hmem, hsame⟩ := present?_eq hr
    exact ⟨hadding.inForce_lt r hmem, .inl (congrArg some hsame.symm)⟩

/-- The ledger stays right. -/
theorem pass (h : ledger.Agrees s) {ds ds' : List Dispatch} {m : Moment} (hstep : Step ds s m ds') :
    (ledger.pass s m).Agrees (m.pass s) := by
  -- Only commands touch registrations; what else happens leaves the books as they are.
  cases hstep with
  | took ha => exact h.same (sameBooks_took ha)
  | turn => exact h.same (sameBooks_turn ..)
  | failed => exact h.same (sameRecords_failed _).toSameBooks
  | closed => exact h.same (sameRecords_closed _).toSameBooks
  | @did _ _ command hquiet =>
    cases command with
    | create width height =>
      refine h.gone ?_ ?_ <;> rw [pass_create] <;> cases hcreate : Terminal.create width height with
      | error => rfl
      | ok =>
        obtain ⟨e, -, rfl⟩ := Terminal.create_eq hcreate
        rfl
    | destroy => exact h.gone rfl rfl
    | subscribe name handle =>
      cases name with
      | none => exact h.same ⟨rfl, rfl, rfl⟩
      | some name => exact h.subscribe name handle
    | unlisten name =>
      cases name with
      | none => exact h.same ⟨rfl, rfl, rfl⟩
      | some name =>
        unfold Ledger.pass
        rw [pass_unlisten]
        exact h.unlisten name
    | unsubscribe handle =>
      cases hhandle : s.handles.lookup handle with
      | none =>
        unfold Ledger.pass
        rw [pass_unsubscribe_void hhandle]
        exact h.same ⟨rfl, rfl, rfl⟩
      | some subscription => exact h.unsubscribe hhandle
    | copyHandle source target =>
      have hsame : (ledger.keep s).Agrees s := h.same ⟨rfl, rfl, rfl⟩
      refine hsame.give target (ledger.given.lookup source) (s.handles.lookup source) ?_
      intro r hr
      exact ⟨hsame.given_lt source r hr, hsame.held source r hr⟩
    | _ => exact h.same (SameRecords.toSameBooks (sameRecords_did (by trivial) hquiet))

theorem along {ds ds' : List Dispatch} {l : List Moment} (h : ledger.Agrees s) (hl : Unfolds ds s l ds') :
    (ledger.along s l).Agrees (s.along l) := by
  induction hl generalizing ledger with
  | nil => exact h
  | cons hstep _ ih => exact ih (h.pass hstep)

theorem start : Agrees { } { } := by
  refine ⟨.nil, ?_, ?_, ?_, ?_, ?_⟩
  · intro subscription
    constructor
    · rintro ⟨r, hr, -⟩
      cases hr
    · rintro ⟨-, hmem⟩
      cases hmem
  · exact fun r hr => by cases hr
  · exact fun r hr => by cases hr
  · exact fun handle r hr => by cases hr
  · exact fun handle r hr => by cases hr

end Agrees

/-! ### What handles do -/

/-- The scene in which a handle has been unsubscribed that was for a registration in force. -/
private theorem Agrees.ends (h : ledger.Agrees s) {r : Registration} (hr : r ∈ ledger.inForce)
    (hhandle : s.handles.lookup handle = some r.subscription) :
    Scene.unsubscribe handle s = .ok () { s.removing r.subscription.listener with
        handles := assign handle none s.handles } ∧
      (ledger.pass s (.did (.unsubscribe handle))).inForce = ledger.inForce.filter fun r' => r' ≠ r := by
  have hregistered : s.Registers r.subscription := (h.inForce_iff _).1 ⟨r, hr, rfl⟩
  have hunsubscribe := unsubscribe_eq hhandle
  rw [if_pos hregistered.1] at hunsubscribe
  have hpass := pass_unsubscribe hhandle
  rw [if_pos hregistered.1] at hpass
  refine ⟨hunsubscribe, List.filter_congr ?_⟩
  intro r' hr'
  have hregistered' : s.Registers r'.subscription := (h.inForce_iff _).1 ⟨r', hr', rfl⟩
  rw [hpass, decide_eq_decide]
  show s.generation = _ ∧ _ ∈ (s.removing r.subscription.listener).members ↔ _
  rw [members_removing, h.nodup.mem_erase_iff]
  constructor
  · rintro ⟨-, hother, -⟩ rfl
    exact hother rfl
  · intro hother
    refine ⟨hregistered'.1, ?_, hregistered'.2⟩
    -- Two registrations in force are with the same terminal, so their listeners differ.
    intro hlistener
    have hgeneration := hregistered'.1.symm.trans hregistered.1
    exact hother (h.unique r' hr' r hr (Subscription.mk.injEq .. ▸ ⟨hgeneration, hlistener⟩))

/-- The scene in which a handle has been unsubscribed that is void or for a listener that is not registered. -/
private theorem Agrees.changes_nothing (h : ledger.Agrees s)
    (hhandle : ∀ subscription, s.handles.lookup handle = some subscription → ¬ s.Registers subscription) :
    Scene.unsubscribe handle s = .ok () { s with handles := assign handle none s.handles } ∧
      (ledger.pass s (.did (.unsubscribe handle))).inForce = ledger.inForce := by
  have hunsubscribe : Scene.unsubscribe handle s = .ok () { s with handles := assign handle none s.handles } := by
    cases hlookup : s.handles.lookup handle with
    | none =>
      rw [assign_none_of_lookup hlookup]
      exact unsubscribe_void hlookup
    | some subscription =>
      rw [unsubscribe_eq hlookup]
      split
      · next hgeneration =>
        rw [removing_of_not_mem fun hmem => hhandle subscription hlookup ⟨hgeneration, hmem⟩]
      · rfl
  refine ⟨hunsubscribe, List.filter_eq_self.2 ?_⟩
  intro r hr
  have hpass : Moment.pass s (.did (.unsubscribe handle)) = { s with handles := assign handle none s.handles } :=
    (left_bind_pure _ _ s).trans (left_of_ok hunsubscribe)
  rw [hpass]
  exact decide_eq_true ((h.inForce_iff _).1 ⟨r, hr, rfl⟩)

/-- A handle that is for a registration, at any moment of a run.  As long as its registration is in force, the handle is
active, and unsubscribing it ends this registration and no other.  When the registration has ended, and the handle is
void or the listener has not been registered anew, the handle is not active, and unsubscribing it changes nothing but
the handle. -/
theorem handle_ends_own_registration (room : Nat) (commands : List Command) {past : List Moment}
    (hpast : past <+: history room commands { }) (hs : Scene.along { } past = s)
    (hledger : Ledger.along { } { } past = ledger) {r : Registration}
    (hgiven : ledger.given.lookup handle = some r) :
    (r ∈ ledger.inForce →
      s.isActive handle = true ∧
      Scene.unsubscribe handle s = .ok () { s.removing r.subscription.listener with
        handles := assign handle none s.handles } ∧
      (ledger.pass s (.did (.unsubscribe handle))).inForce = ledger.inForce.filter fun r' => r' ≠ r) ∧
    (r ∉ ledger.inForce →
      s.handles.lookup handle = none ∨ (∀ r' ∈ ledger.inForce, r'.subscription ≠ r.subscription) →
      s.isActive handle = false ∧
      Scene.unsubscribe handle s = .ok () { s with handles := assign handle none s.handles } ∧
      (ledger.pass s (.did (.unsubscribe handle))).inForce = ledger.inForce) := by
  obtain ⟨hunfolds, -⟩ := history_recorded room commands { }
  obtain ⟨rest, hrest⟩ := hpast
  rw [← hrest] at hunfolds
  obtain ⟨_, hunfolds, -⟩ := hunfolds.split
  -- The ledger has been kept along the run, so it agrees with the scene now.
  have h : ledger.Agrees s := hs ▸ hledger ▸ Agrees.start.along hunfolds
  have hactive : s.isActive handle = true ↔ ∃ subscription, s.handles.lookup handle = some subscription ∧
      s.Registers subscription := by
    unfold isActive
    cases s.handles.lookup handle with
    | none => simp
    | some subscription => simp [isInForce_iff]
  constructor
  · intro hr
    have hhandle := (h.held handle r hgiven).resolve_right fun hvoid => hvoid.2 hr
    exact ⟨hactive.2 ⟨_, hhandle, (h.inForce_iff _).1 ⟨r, hr, rfl⟩⟩, h.ends hr hhandle⟩
  · intro _ hcase
    -- The handle is void, or its registration has ended and nobody has registered anew under it.
    have hnot : ∀ subscription, s.handles.lookup handle = some subscription → ¬ s.Registers subscription := by
      intro subscription hlookup hregistered
      rcases hcase with hvoid | hnone
      · rw [hvoid] at hlookup
        cases hlookup
      · rcases h.held handle r hgiven with hheld | ⟨hvoid, -⟩
        · rw [hheld] at hlookup
          obtain rfl := Option.some.inj hlookup
          obtain ⟨r', hr', hsame⟩ := (h.inForce_iff _).2 hregistered
          exact hnone r' hr' hsame
        · rw [hvoid] at hlookup
          cases hlookup
    refine ⟨?_, h.changes_nothing hnot⟩
    rw [← Bool.not_eq_true, hactive]
    rintro ⟨subscription, hlookup, hregistered⟩
    exact hnot subscription hlookup hregistered

/-- A copy of a handle ends the registration for which the handle was given out. -/
theorem copied_handle_ends_registration :
    ∃ s ledger,
      Scene.along { } (history 1 [.create 2 1, .subscribe (some "a") (some "h"), .copyHandle "h" "k"] { }) = s ∧
      Ledger.along { } { } (history 1 [.create 2 1, .subscribe (some "a") (some "h"), .copyHandle "h" "k"] { }) =
        ledger ∧
      ledger.given.lookup "k" = some ⟨⟨1, "a"⟩, 0⟩ ∧ s.isActive "k" = true ∧
      ledger.inForce = [⟨⟨1, "a"⟩, 0⟩] ∧ (ledger.pass s (.did (.unsubscribe "k"))).inForce = [] := by
  obtain ⟨s, hs⟩ : ∃ s, Scene.along { } (history 1 [.create 2 1, .subscribe (some "a") (some "h"),
      .copyHandle "h" "k"] { }) = s := ⟨_, rfl⟩
  obtain ⟨ledger, hledger⟩ : ∃ ledger, Ledger.along { } { } (history 1 [.create 2 1,
      .subscribe (some "a") (some "h"), .copyHandle "h" "k"] { }) = ledger := ⟨_, rfl⟩
  have hgiven : ledger.given.lookup "k" = some ⟨⟨1, "a"⟩, 0⟩ := by
    subst hledger
    decide +kernel
  have hinForce : ledger.inForce = [⟨⟨1, "a"⟩, 0⟩] := by
    subst hledger
    decide +kernel
  obtain ⟨hactive, -, hends⟩ :=
    (handle_ends_own_registration 1 _ List.prefix_rfl hs hledger hgiven).1 (hinForce ▸ List.mem_singleton_self _)
  rw [hinForce] at hends
  exact ⟨s, ledger, hs, hledger, hgiven, hactive, hinForce, hends⟩

/-- A listener is removed and registered anew.  The handle of its first registration, which has ended, is active, and
unsubscribing it ends the second one. -/
theorem stale_handle_ends_later_registration :
    ∃ s ledger r,
      Scene.along { } (history 1 [.create 2 1, .subscribe (some "a") (some "h"), .unlisten (some "a"),
        .subscribe (some "a") none] { }) = s ∧
      Ledger.along { } { } (history 1 [.create 2 1, .subscribe (some "a") (some "h"), .unlisten (some "a"),
        .subscribe (some "a") none] { }) = ledger ∧
      ledger.given.lookup "h" = some r ∧ r ∉ ledger.inForce ∧ s.isActive "h" = true ∧
      (ledger.pass s (.did (.unsubscribe "h"))).inForce ≠ ledger.inForce :=
  ⟨_, _, ⟨⟨1, "a"⟩, 0⟩, rfl, rfl, by decide +kernel⟩

end Ledger

end ScreenWatch
