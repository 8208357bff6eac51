import Mathlib.Data.List.Induction
import ScreenWatch.Host.Selector

/-!
# What a selector replies

A selector is asked one thing after another: to watch descriptors and signals, to wait, and what the waiting has come
to.  Each of its replies tells what happened before the request (`replies_tell_what_happened`): a wait looks at the
descriptors up to the largest one that was added, a descriptor is readable if the last wait has found it so, and a
signal has arrived if it was delivered since it was asked for the last time.

The invariant (`Agrees`) ties the fields of the selector to the requests that were made; each request keeps it
(`Agrees.reply`).
-/

namespace ScreenWatch.Host

/-- What is asked of a selector; a wait is given together with what it comes to. -/
inductive Request
  | addDescriptor (descriptor : Int)
  | addSignal (signal : Int)
  | wait (outcome : Outcome)
  | isReadable (descriptor : Int)
  | takeSignal (signal : Int)

inductive Reply
  | done
  /-- A wait looked at that many descriptors, and has returned. -/
  | waited (span : Int) (result : Except Errno Nat)
  | truth (b : Bool)

/-- What a wait returns: an interrupted one has found nothing readable. -/
def Outcome.returned (o : Outcome) : Except Errno Nat :=
  match o.result with
  | .ok readable => .ok readable.length
  | .error e => if e = Errno.interrupted then .ok 0 else .error e

/-- The wait that a request is, and what it comes to. -/
def Request.outcome? : Request → Option Outcome
  | wait outcome => some outcome
  | _ => none

namespace Selector

/-- The reply to a request, and the selector after it; none if the selector refuses the request. -/
def reply? (s : Selector) : Request → Option (Reply × Selector)
  | .addDescriptor descriptor => (s.addDescriptor descriptor).map fun s => (.done, s)
  | .addSignal signal => (s.addSignal signal).map fun s => (.done, s)
  | .wait outcome => some (.waited s.span (s.settle outcome).1, (s.settle outcome).2)
  | .isReadable descriptor => (s.isReadable? descriptor).map fun b => (.truth b, s)
  | .takeSignal signal => (s.takeSignal signal).map fun (b, s) => (.truth b, s)

def replies? (s : Selector) : List Request → Option (List Reply × Selector)
  | [] => some ([], s)
  | request :: rest => do
    let (reply, s) ← s.reply? request
    let (replies, s) ← s.replies? rest
    return (reply :: replies, s)

/-- The request may be made after those of the past. -/
def IsAllowed (past : List Request) : Request → Prop
  | .addDescriptor descriptor => 0 ≤ descriptor ∧ descriptor < maxDescriptors
  | .addSignal signal => isSignal signal = true ∧ signal ∉ unhandleable
  | .wait _ => True
  | .isReadable descriptor => .addDescriptor descriptor ∈ past
  | .takeSignal signal => isSignal signal = true

/-- Each of the requests may be made after those before it. -/
def AllAllowed : List Request → List Request → Prop
  | _, [] => True
  | past, request :: rest => IsAllowed past request ∧ AllAllowed (past ++ [request]) rest

/-! ### What has happened -/

/-- One more than the largest descriptor that was added, or zero if there is none. -/
def IsSpan (past : List Request) (span : Int) : Prop :=
  (span = 0 ∧ ∀ d, .addDescriptor d ∉ past) ∨
    ∃ d, span = d + 1 ∧ .addDescriptor d ∈ past ∧ ∀ d', .addDescriptor d' ∈ past → d' ≤ d

def lastOutcome? (past : List Request) : Option Outcome := (past.filterMap Request.outcome?).getLast?

/-- The last wait has returned an error. -/
def HasFailed (past : List Request) : Prop := ∃ o e, lastOutcome? past = some o ∧ o.returned = .error e

/-- The last wait has found the descriptor readable. -/
def WasFound (past : List Request) (descriptor : Int) : Prop :=
  ∃ o readable, lastOutcome? past = some o ∧ o.result = .ok readable ∧ descriptor ∈ readable

/-- The signal was delivered, and nobody has asked for it since. -/
def IsPending (past : List Request) (signal : Int) : Prop :=
  ∃ before o after, past = before ++ .wait o :: after ∧ signal ∈ o.delivered ∧ .takeSignal signal ∉ after

/-- The reply to a request tells what happened before it; after a failed wait nothing is told of descriptors. -/
def Tells (past : List Request) : Request → Reply → Prop
  | .addDescriptor _, .done | .addSignal _, .done => True
  | .wait o, .waited span result => IsSpan past span ∧ result = o.returned
  | .isReadable descriptor, .truth b => ¬HasFailed past → (b = true ↔ WasFound past descriptor)
  | .takeSignal signal, .truth b => b = true ↔ IsPending past signal
  | _, _ => False

/-- There is one reply to each request, and it tells what happened before. -/
inductive AllTell : List Request → List Request → List Reply → Prop
  | nil {past : List Request} : AllTell past [] []
  | cons {past rest : List Request} {request : Request} {reply : Reply} {replies : List Reply}
    (h : Tells past request reply) (hrest : AllTell (past ++ [request]) rest replies) :
    AllTell past (request :: rest) (reply :: replies)

variable {s : Selector} {past requests : List Request} {request : Request}

/-! ### One more request -/

private theorem lastOutcome?_concat_wait (past : List Request) (o : Outcome) :
    lastOutcome? (past ++ [.wait o]) = some o := by
  unfold lastOutcome?
  rw [List.filterMap_append]
  exact List.getLast?_concat

private theorem lastOutcome?_concat (past : List Request) (h : request.outcome? = none) :
    lastOutcome? (past ++ [request]) = lastOutcome? past := by
  unfold lastOutcome?
  rw [List.filterMap_append, List.filterMap_cons_none h, List.filterMap_nil, List.append_nil]

private theorem hasFailed_concat (h : request.outcome? = none) : HasFailed (past ++ [request]) ↔ HasFailed past := by
  unfold HasFailed
  rw [lastOutcome?_concat past h]

private theorem wasFound_concat (h : request.outcome? = none) (descriptor : Int) :
    WasFound (past ++ [request]) descriptor ↔ WasFound past descriptor := by
  unfold WasFound
  rw [lastOutcome?_concat past h]

private theorem IsSpan.concat_addDescriptor {highest d : Int} (h : IsSpan past (highest + 1)) (hd : 0 ≤ d) :
    IsSpan (past ++ [.addDescriptor d]) (max highest d + 1) := by
  have hadded : ∀ d', .addDescriptor d' ∈ past ++ [.addDescriptor d] ↔ .addDescriptor d' ∈ past ∨ d' = d := by simp
  refine .inr ⟨max highest d, rfl, ?_, fun d' hd' => ?_⟩
  · rw [hadded]
    rcases h with ⟨hzero, -⟩ | ⟨largest, hlargest, hmem, -⟩
    · exact .inr (Int.max_eq_right (by omega))
    · obtain rfl : highest = largest := by omega
      rcases Int.le_total highest d with hle | hle
      · exact .inr (Int.max_eq_right hle)
      · rw [Int.max_eq_left hle]
        exact .inl hmem
  · rcases (hadded d').1 hd' with hd' | rfl
    · rcases h with ⟨-, hnone⟩ | ⟨largest, hlargest, -, hle⟩
      · exact absurd hd' (hnone d')
      · have := hle d' hd'
        omega
    · exact Int.le_max_right ..

private theorem isPending_concat {signal : Int} : IsPending (past ++ [request]) signal ↔
    (∃ o, request = .wait o ∧ signal ∈ o.delivered) ∨ IsPending past signal ∧ request ≠ .takeSignal signal := by
  constructor
  · rintro ⟨before, o, after, hpast, hdelivered, hafter⟩
    rcases List.eq_nil_or_concat after with rfl | ⟨after, last, rfl⟩
    · obtain ⟨-, hlast⟩ := List.append_inj' hpast rfl
      exact .inl ⟨o, (List.cons.inj hlast).1, hdelivered⟩
    · rw [List.concat_eq_append] at hpast hafter
      rw [← List.cons_append, ← List.append_assoc] at hpast
      obtain ⟨rfl, hlast⟩ := List.append_inj' hpast rfl
      obtain ⟨rfl, -⟩ := List.cons.inj hlast
      rw [List.mem_append, not_or, List.mem_singleton] at hafter
      exact .inr ⟨⟨before, o, after, rfl, hdelivered, hafter.1⟩, Ne.symm hafter.2⟩
  · rintro (⟨o, rfl, hdelivered⟩ | ⟨⟨before, o, after, rfl, hdelivered, hafter⟩, hother⟩)
    · exact ⟨past, o, [], rfl, hdelivered, List.not_mem_nil⟩
    · refine ⟨before, o, after ++ [request], by simp, hdelivered, ?_⟩
      rw [List.mem_append, not_or, List.mem_singleton]
      exact ⟨hafter, Ne.symm hother⟩

/-! ### Waiting -/

theorem mem_foldl_deliver {signals : List Int} {signal : Int} :
    signal ∈ (signals.foldl deliver s).arrived ↔ signal ∈ s.arrived ∨ isSignal signal = true ∧ signal ∈ signals := by
  induction signals generalizing s with
  | nil => simp
  | cons n rest ih =>
    have hfirst : signal ∈ (s.deliver n).arrived ↔ signal ∈ s.arrived ∨ isSignal signal = true ∧ signal = n := by
      unfold deliver
      split
      · next h =>
        rw [List.mem_cons]
        constructor
        · rintro (rfl | harrived)
          · exact .inr ⟨h.1, rfl⟩
          · exact .inl harrived
        · rintro (harrived | ⟨-, rfl⟩)
          · exact .inr harrived
          · exact .inl rfl
      · next h =>
        refine ⟨.inl, ?_⟩
        rintro (harrived | ⟨hsignal, rfl⟩)
        · exact harrived
        · exact Decidable.of_not_not fun hnew => h ⟨hsignal, hnew⟩
    rw [List.foldl_cons, ih, hfirst, List.mem_cons, or_assoc, ← and_or_left]

theorem foldl_deliver_eq (signals : List Int) (s : Selector) :
    signals.foldl deliver s = { s with arrived := (signals.foldl deliver s).arrived } := by
  induction signals generalizing s with
  | nil => rfl
  | cons n rest ih =>
    have hfirst : s.deliver n = { s with arrived := (s.deliver n).arrived } := by
      unfold deliver
      split <;> rfl
    rw [List.foldl_cons]
    refine (ih _).trans ?_
    rw [hfirst]

/-- What a wait returns and leaves. -/
theorem settle_eq (s : Selector) (o : Outcome) : s.settle o = (o.returned,
    { s with
      arrived := (o.delivered.foldl deliver s).arrived
      readable := match o.result with
        | .ok readable => readable
        | .error e => if e = Errno.interrupted then [] else s.watched }) := by
  unfold settle Outcome.returned
  rw [foldl_deliver_eq]
  cases o.result with
  | ok readable => rfl
  | error e =>
    dsimp only
    split <;> rfl

theorem settle_watched (s : Selector) (o : Outcome) : (s.settle o).2.watched = s.watched := by
  rw [settle_eq]

/-! ### The invariant -/

/-- The selector is as the requests of the past have left it. -/
structure Agrees (past : List Request) (s : Selector) : Prop where
  watched_iff : ∀ d, d ∈ s.watched ↔ .addDescriptor d ∈ past
  isSpan : IsSpan past s.span
  readable_iff : ¬HasFailed past → ∀ d, d ∈ s.readable ↔ WasFound past d
  arrived_iff : ∀ n, n ∈ s.arrived ↔ isSignal n = true ∧ IsPending past n

namespace Agrees

theorem start : Agrees [] { } := by
  refine ⟨by simp, .inl ⟨rfl, by simp⟩, fun _ d => ?_, fun n => ?_⟩
  · refine iff_of_false List.not_mem_nil ?_
    rintro ⟨o, readable, hlast, -⟩
    cases hlast
  · refine iff_of_false List.not_mem_nil ?_
    rintro ⟨-, before, o, after, hpast, -⟩
    simp at hpast

/-- A request that adds no descriptor and is no wait. -/
private theorem same (h : Agrees past s) {s' : Selector} (hdescriptor : ∀ d, request ≠ .addDescriptor d)
    (hwait : request.outcome? = none) (hwatched : s'.watched = s.watched) (hhighest : s'.highest = s.highest)
    (hreadable : s'.readable = s.readable)
    (harrived : ∀ n, n ∈ s'.arrived ↔ n ∈ s.arrived ∧ request ≠ .takeSignal n) : Agrees (past ++ [request]) s' := by
  have hadded : ∀ d, .addDescriptor d ∈ past ++ [request] ↔ .addDescriptor d ∈ past := fun d => by
    simp [Ne.symm (hdescriptor d)]
  obtain ⟨hwatchedIff, hspan, hreadableIff, harrivedIff⟩ := h
  refine ⟨fun d => ?_, ?_, fun hfailed d => ?_, fun n => ?_⟩
  · rw [hwatched, hwatchedIff, hadded]
  · unfold IsSpan span at hspan ⊢
    simpa only [hadded, hhighest] using hspan
  · rw [hasFailed_concat hwait] at hfailed
    rw [wasFound_concat hwait, hreadable]
    exact hreadableIff hfailed d
  · rw [harrived, harrivedIff, isPending_concat]
    constructor
    · rintro ⟨⟨hsignal, hpending⟩, hother⟩
      exact ⟨hsignal, .inr ⟨hpending, hother⟩⟩
    · rintro ⟨hsignal, ⟨o, rfl, -⟩ | ⟨hpending, hother⟩⟩
      · cases hwait
      · exact ⟨⟨hsignal, hpending⟩, hother⟩

private theorem addDescriptor (h : Agrees past s) {d : Int} (hd : 0 ≤ d) :
    Agrees (past ++ [.addDescriptor d]) { s with
      highest := max s.highest d
      watched := if d ∈ s.watched then s.watched else s.watched ++ [d] } := by
  have hadded : ∀ d', .addDescriptor d' ∈ past ++ [.addDescriptor d] ↔ .addDescriptor d' ∈ past ∨ d' = d := by simp
  obtain ⟨hwatchedIff, hspan, hreadableIff, harrivedIff⟩ := h
  refine ⟨fun d' => ?_, ?_, fun hfailed d' => ?_, fun n => ?_⟩
  · rw [hadded, ← hwatchedIff]
    by_cases hmem : d ∈ s.watched
    · rw [if_pos hmem]
      exact ⟨.inl, fun h => h.elim id fun heq => heq ▸ hmem⟩
    · rw [if_neg hmem, List.mem_append, List.mem_singleton]
  · exact hspan.concat_addDescriptor hd
  · rw [hasFailed_concat rfl] at hfailed
    rw [wasFound_concat rfl]
    exact hreadableIff hfailed d'
  · rw [isPending_concat]
    refine (harrivedIff n).trans ?_
    simp

private theorem wait (h : Agrees past s) (o : Outcome) : Agrees (past ++ [.wait o]) (s.settle o).2 := by
  have hlast := lastOutcome?_concat_wait past o
  obtain ⟨hwatchedIff, hspan, -, harrivedIff⟩ := h
  rw [settle_eq]
  refine ⟨fun d => ?_, ?_, fun hfailed d => ?_, fun n => ?_⟩
  · refine (hwatchedIff d).trans ?_
    simp
  · unfold IsSpan span at hspan ⊢
    simpa using hspan
  · unfold HasFailed at hfailed
    unfold WasFound
    rw [hlast] at hfailed ⊢
    cases hresult : o.result with
    | ok readable => simp [hresult]
    | error e =>
      have hinterrupted : e = Errno.interrupted := by
        refine Decidable.of_not_not fun hother => hfailed ⟨o, e, rfl, ?_⟩
        unfold Outcome.returned
        rw [hresult]
        exact if_neg hother
      simp [hresult, hinterrupted]
  · dsimp only
    rw [mem_foldl_deliver, harrivedIff, isPending_concat, ← and_or_left]
    simp [or_comm]

/-- Each request that is allowed is replied to, rightly, and leaves a selector that agrees with what has happened. -/
theorem reply (h : Agrees past s) (hallowed : IsAllowed past request) :
    ∃ reply s', s.reply? request = some (reply, s') ∧ Tells past request reply ∧ Agrees (past ++ [request]) s' := by
  cases request with
  | addDescriptor d =>
    exact ⟨.done, _, congrArg (Option.map _) (if_pos hallowed), trivial, h.addDescriptor hallowed.1⟩
  | addSignal signal =>
    exact ⟨.done, _, congrArg (Option.map _) (if_pos hallowed), trivial, h.same (by simp) rfl rfl rfl rfl (by simp)⟩
  | wait o => exact ⟨_, _, rfl, ⟨h.isSpan, by rw [settle_eq]⟩, h.wait o⟩
  | isReadable d =>
    refine ⟨.truth (decide (d ∈ s.readable)), s, congrArg (Option.map _) (if_pos ((h.watched_iff d).2 hallowed)),
      fun hfailed => ?_, h.same (by simp) rfl rfl rfl rfl (by simp)⟩
    rw [decide_eq_true_iff]
    exact h.readable_iff hfailed d
  | takeSignal signal =>
    refine ⟨.truth (decide (signal ∈ s.arrived)), _, congrArg (Option.map _) (if_pos hallowed), ?_,
      h.same (by simp) rfl rfl rfl rfl fun n => ?_⟩
    · show decide _ = true ↔ _
      rw [decide_eq_true_iff, h.arrived_iff]
      exact and_iff_right hallowed
    · rw [List.mem_filter, decide_eq_true_iff, Ne, Ne, Request.takeSignal.injEq, eq_comm]

end Agrees

/-- The induction is on the requests; what they leave agrees with all that were made. -/
private theorem Agrees.replies (h : Agrees past s) (hallowed : AllAllowed past requests) :
    ∃ replies s', s.replies? requests = some (replies, s') ∧ AllTell past requests replies := by
  induction requests generalizing past s with
  | nil => exact ⟨[], s, rfl, .nil⟩
  | cons request rest ih =>
    obtain ⟨reply, s', hreply, htells, hs'⟩ := h.reply hallowed.1
    obtain ⟨replies, s'', hreplies, hrest⟩ := ih hs' hallowed.2
    refine ⟨reply :: replies, s'', ?_, .cons htells hrest⟩
    rw [replies?, hreply]
    show (s'.replies? rest >>= _) = _
    rw [hreplies]
    rfl

/-- A selector replies to all requests, as long as descriptors are possible ones, signals can be handled, and only
descriptors that were added are asked for.  Each wait looks at one descriptor more than the largest one that was added,
or at none.  After a wait that has returned no error, a descriptor is readable exactly if this wait has found it so; so
none is after a timeout or an interruption.  A signal has arrived exactly if it was delivered since it was asked for the
last time, whatever became of other signals. -/
theorem replies_tell_what_happened (hallowed : AllAllowed [] requests) :
    ∃ replies s, ({ } : Selector).replies? requests = some (replies, s) ∧ AllTell [] requests replies :=
  Agrees.start.replies hallowed

/-- Of two descriptors the second one is found readable, and none is when two signals interrupt the next wait; each of
them has arrived once. -/
theorem replies_tell_of_two_signals :
    let requests : List Request :=
      [.wait { result := .ok [] }, .addDescriptor 99, .addDescriptor 0, .addSignal 2, .addSignal 15,
        .wait { result := .ok [99] }, .isReadable 0, .isReadable 99,
        .wait { delivered := [15, 2], result := .error Errno.interrupted }, .isReadable 99, .takeSignal 15,
        .takeSignal 15, .takeSignal 2]
    let replies : List Reply :=
      [.waited 0 (.ok 0), .done, .done, .done, .done, .waited 100 (.ok 1), .truth false, .truth true,
        .waited 100 (.ok 0), .truth false, .truth true, .truth false, .truth true]
    AllAllowed [] requests ∧ (({ } : Selector).replies? requests).map Prod.fst = some replies ∧
      AllTell [] requests replies := by
  intro requests replies
  have hallowed : AllAllowed [] requests := by
    simp [requests, AllAllowed, IsAllowed, isSignal, maxDescriptors, maxSignal, unhandleable]
  have hreplies : (({ } : Selector).replies? requests).map Prod.fst = some replies := rfl
  obtain ⟨given, s, hgiven, htell⟩ := replies_tell_what_happened hallowed
  rw [hgiven] at hreplies
  obtain rfl : given = replies := Option.some.inj hreplies
  exact ⟨hallowed, by rw [hgiven]; rfl, htell⟩

end Selector

end ScreenWatch.Host
