import ScreenWatch.Host.Delivery

/-!
# What a delivery takes

A delivery goes through moments: after some answers, some pieces were taken and a rest is left (`Reaches`).  At each of
them the pieces are a first part of the data.  A delivery ends when nothing is left, or with a write that fails or takes
nothing while something is left (`deliver_ends`), so it takes everything or reports why it does not
(`takes_all_or_fails`).
-/

namespace ScreenWatch.Host.Delivery

variable {data rest : Bytes} {answer : Int} {answers made more : List Int} {pieces : List Bytes}
  {failure : DeliveryFailure}

/-! ### Single answers -/

/-- The write is made again: it was interrupted, or the pipe is full. -/
def IsRetry (answer : Int) : Prop :=
  answer < 0 ∧ (answer.natAbs = Errno.interrupted ∨ answer.natAbs = Errno.tryAgain)

instance : DecidablePred IsRetry := fun _ => inferInstanceAs (Decidable (_ ∧ _))

/-- Why a write ends the delivery, if it does. -/
def failureOf? (answer : Int) : Option DeliveryFailure :=
  if answer = 0 then some .noProgress
  else if answer < 0 ∧ ¬IsRetry answer then some (.failed answer.natAbs)
  else none

private theorem answer_cases (answer : Int) :
    IsRetry answer ∨ (∃ n : Nat, 0 < n ∧ answer = n) ∨ ∃ failure, failureOf? answer = some failure := by
  unfold failureOf?
  by_cases hretry : IsRetry answer
  · exact .inl hretry
  · rcases Int.lt_trichotomy answer 0 with h | h | h
    · exact .inr (.inr ⟨.failed answer.natAbs, by rw [if_neg (by omega), if_pos ⟨h, hretry⟩]⟩)
    · exact .inr (.inr ⟨.noProgress, if_pos h⟩)
    · exact .inr (.inl ⟨answer.toNat, by omega, by omega⟩)

/-- Nothing is written where there is nothing to write. -/
theorem deliver_nil (answers : List Int) : deliver [] answers = { unused := answers } := by
  cases answers <;> rfl

private theorem isEmpty_of_ne (hdata : data ≠ []) : ¬data.isEmpty = true := by simpa using hdata

/-- When no answers are left, all the rest is taken at once. -/
theorem deliver_no_answers (hdata : data ≠ []) : deliver data [] = { pieces := [data] } := by
  rw [deliver, if_neg (isEmpty_of_ne hdata)]

theorem deliver_retry (hdata : data ≠ []) (h : IsRetry answer) (more : List Int) :
    deliver data (answer :: more) = (deliver data more).afterError answer.natAbs := by
  rw [deliver, if_neg (isEmpty_of_ne hdata), if_pos h.1]
  exact if_pos h.2

theorem deliver_take (hdata : data ≠ []) {n : Nat} (hn : 0 < n) (more : List Int) :
    deliver data (n :: more) = (deliver (data.drop n) more).withPiece (data.take n) := by
  rw [deliver, if_neg (isEmpty_of_ne hdata), if_neg (by omega)]
  exact if_neg (by simp; omega)

/-- A write that ends the delivery takes nothing, and no other one follows. -/
theorem deliver_failure (hdata : data ≠ []) (h : failureOf? answer = some failure) :
    ∃ pieces lastError, pieces.flatten = [] ∧
      ∀ more, deliver data (answer :: more) = ⟨pieces, more, lastError, some failure⟩ := by
  unfold failureOf? at h
  split at h
  · next hzero =>
    obtain rfl := Option.some.inj h
    subst hzero
    exact ⟨[[]], none, rfl, fun more => by rw [deliver, if_neg (isEmpty_of_ne hdata)]; rfl⟩
  · split at h
    · next hfatal =>
      obtain rfl := Option.some.inj h
      have hretry : ¬(answer.natAbs = Errno.interrupted ∨ answer.natAbs = Errno.tryAgain) := fun he =>
        hfatal.2 ⟨hfatal.1, he⟩
      refine ⟨[], some answer.natAbs, rfl, fun more => ?_⟩
      rw [deliver, if_neg (isEmpty_of_ne hdata), if_pos hfatal.1]
      exact if_neg hretry
    · cases h

/-! ### Moments of a delivery -/

/-- As long as something is left to write, a write asks for all of it.  The answers to some writes are given; they have
taken some pieces, and left a rest. -/
inductive Reaches : Bytes → List Int → List Bytes → Bytes → Prop
  | start (data : Bytes) : Reaches data [] [] data
  | retried {data rest : Bytes} {answer : Int} {made : List Int} {pieces : List Bytes} (hdata : data ≠ [])
    (hretry : IsRetry answer) (h : Reaches data made pieces rest) : Reaches data (answer :: made) pieces rest
  | took {data rest : Bytes} {n : Nat} {made : List Int} {pieces : List Bytes} (hdata : data ≠ []) (hn : 0 < n)
    (h : Reaches (data.drop n) made pieces rest) : Reaches data (n :: made) (data.take n :: pieces) rest

/-- Nothing is lost or repeated. -/
theorem Reaches.flatten_append (h : Reaches data made pieces rest) : pieces.flatten ++ rest = data := by
  induction h with
  | start => rfl
  | retried _ _ _ ih => exact ih
  | took _ _ _ ih => rw [List.flatten_cons, List.append_assoc, ih, List.take_append_drop]

/-- From each of its moments on, a delivery delivers the rest. -/
theorem Reaches.deliver_append (h : Reaches data made pieces rest) (more : List Int) :
    (deliver data (made ++ more)).pieces = pieces ++ (deliver rest more).pieces ∧
      (deliver data (made ++ more)).unused = (deliver rest more).unused ∧
      (deliver data (made ++ more)).failure = (deliver rest more).failure := by
  induction h with
  | start => exact ⟨rfl, rfl, rfl⟩
  | retried hdata hretry _ ih =>
    rw [List.cons_append, deliver_retry hdata hretry]
    exact ih
  | took hdata hn _ ih =>
    rw [List.cons_append, deliver_take hdata hn]
    exact ⟨congrArg (List.cons _) ih.1, ih.2⟩

/-- The delivery comes to its end without a failure: nothing is left, and what was not needed of the answers is not
used; or the answers are at an end, and one more write takes the rest. -/
def Completes (data : Bytes) (answers : List Int) (d : Delivery) : Prop :=
  (∃ made, answers = made ++ d.unused ∧ Reaches data made d.pieces []) ∨
    ∃ pieces rest, Reaches data answers pieces rest ∧ rest ≠ [] ∧ d.pieces = pieces ++ [rest] ∧ d.unused = []

/-- A write that is made while something is left ends the delivery, after which some answers are left. -/
def StopsAt (data : Bytes) (answers : List Int) (pieces : List Bytes) (failure : DeliveryFailure) (more : List Int) :
    Prop :=
  ∃ made rest answer, Reaches data made pieces rest ∧ rest ≠ [] ∧ failureOf? answer = some failure ∧
    answers = made ++ answer :: more

theorem Completes.retried {d : Delivery} (hdata : data ≠ []) (hretry : IsRetry answer) (h : Completes data more d)
    (e : Errno) : Completes data (answer :: more) (d.afterError e) := by
  rcases h with ⟨made, hanswers, hreaches⟩ | ⟨pieces, rest, hreaches, hrest, hpieces, hunused⟩
  · exact .inl ⟨answer :: made, congrArg _ hanswers, .retried hdata hretry hreaches⟩
  · exact .inr ⟨pieces, rest, .retried hdata hretry hreaches, hrest, hpieces, hunused⟩

theorem Completes.took {d : Delivery} {n : Nat} (hdata : data ≠ []) (hn : 0 < n) (h : Completes (data.drop n) more d) :
    Completes data (n :: more) (d.withPiece (data.take n)) := by
  rcases h with ⟨made, hanswers, hreaches⟩ | ⟨pieces, rest, hreaches, hrest, hpieces, hunused⟩
  · exact .inl ⟨n :: made, congrArg _ hanswers, .took hdata hn hreaches⟩
  · exact .inr ⟨_, rest, .took hdata hn hreaches, hrest, congrArg _ hpieces, hunused⟩

theorem StopsAt.retried (hdata : data ≠ []) (hretry : IsRetry answer) (h : StopsAt data answers pieces failure more) :
    StopsAt data (answer :: answers) pieces failure more := by
  obtain ⟨made, rest, fatal, hreaches, hrest, hfatal, hanswers⟩ := h
  exact ⟨answer :: made, rest, fatal, .retried hdata hretry hreaches, hrest, hfatal, congrArg _ hanswers⟩

theorem StopsAt.took {n : Nat} (hdata : data ≠ []) (hn : 0 < n)
    (h : StopsAt (data.drop n) answers pieces failure more) :
    StopsAt data (n :: answers) (data.take n :: pieces) failure more := by
  obtain ⟨made, rest, fatal, hreaches, hrest, hfatal, hanswers⟩ := h
  exact ⟨n :: made, rest, fatal, .took hdata hn hreaches, hrest, hfatal, congrArg _ hanswers⟩

/-- A delivery that fails has come to the write that ends it, and made no other one since. -/
theorem StopsAt.deliver_eq (h : StopsAt data answers pieces failure more) :
    (deliver data answers).taken = pieces.flatten ∧ (deliver data answers).unused = more ∧
      (deliver data answers).failure = some failure := by
  obtain ⟨made, rest, answer, hreaches, hrest, hfatal, rfl⟩ := h
  obtain ⟨nothing, lastError, hnothing, hdeliver⟩ := deliver_failure hrest hfatal
  have hend := hreaches.deliver_append (answer :: more)
  rw [hdeliver more] at hend
  refine ⟨?_, hend.2⟩
  rw [taken, hend.1, List.flatten_append, hnothing, List.append_nil]

/-- However its writes are answered, a delivery completes or stops at a write. -/
theorem deliver_ends (data : Bytes) (answers : List Int) :
    (deliver data answers).failure = none ∧ Completes data answers (deliver data answers) ∨
      ∃ pieces failure more, StopsAt data answers pieces failure more := by
  induction answers generalizing data with
  | nil =>
    by_cases hdata : data = []
    · subst hdata
      exact .inl ⟨rfl, .inl ⟨[], rfl, .start []⟩⟩
    · rw [deliver_no_answers hdata]
      exact .inl ⟨rfl, .inr ⟨[], data, .start data, hdata, rfl, rfl⟩⟩
  | cons answer more ih =>
    by_cases hdata : data = []
    · subst hdata
      exact .inl ⟨rfl, .inl ⟨[], rfl, .start []⟩⟩
    rcases answer_cases answer with hretry | ⟨n, hn, rfl⟩ | ⟨failure, hfatal⟩
    · rw [deliver_retry hdata hretry]
      rcases ih data with ⟨hnone, hcompletes⟩ | ⟨pieces, failure, later, hstops⟩
      · exact .inl ⟨hnone, hcompletes.retried hdata hretry _⟩
      · exact .inr ⟨pieces, failure, later, hstops.retried hdata hretry⟩
    · rw [deliver_take hdata hn]
      rcases ih (data.drop n) with ⟨hnone, hcompletes⟩ | ⟨pieces, failure, later, hstops⟩
      · exact .inl ⟨hnone, hcompletes.took hdata hn⟩
      · exact .inr ⟨_, failure, later, hstops.took hdata hn⟩
    · exact .inr ⟨[], failure, more, [], data, answer, .start data, hdata, hfatal, rfl⟩

/-! ### What is taken -/

theorem Completes.taken_eq {d : Delivery} (h : Completes data answers d) : d.taken = data := by
  rcases h with ⟨made, -, hreaches⟩ | ⟨pieces, rest, hreaches, -, hpieces, -⟩
  · rw [← hreaches.flatten_append, List.append_nil]
    rfl
  · rw [taken, hpieces, List.flatten_append, List.flatten_singleton, hreaches.flatten_append]

/-- The data are what was taken and a rest, of which there is one exactly if the delivery has failed. -/
theorem taken_append (data : Bytes) (answers : List Int) :
    ∃ rest, data = (deliver data answers).taken ++ rest ∧ ((deliver data answers).failure = none ↔ rest = []) := by
  rcases deliver_ends data answers with ⟨hnone, hcompletes⟩ | ⟨pieces, failure, more, hstops⟩
  · exact ⟨[], by rw [hcompletes.taken_eq, List.append_nil], by simp [hnone]⟩
  · obtain ⟨htaken, -, hfailure⟩ := hstops.deliver_eq
    obtain ⟨made, rest, answer, hreaches, hrest, -⟩ := hstops
    exact ⟨rest, by rw [htaken, hreaches.flatten_append], by simp [hfailure, hrest]⟩

theorem taken_prefix (data : Bytes) (answers : List Int) : (deliver data answers).taken <+: data := by
  obtain ⟨rest, h, -⟩ := taken_append data answers
  exact ⟨rest, h.symm⟩

theorem taken_eq_iff (data : Bytes) (answers : List Int) :
    (deliver data answers).taken = data ↔ (deliver data answers).failure = none := by
  obtain ⟨rest, hdata, hrest⟩ := taken_append data answers
  rw [hrest]
  constructor
  · intro h
    rw [h] at hdata
    exact List.self_eq_append_right.1 hdata
  · rintro rfl
    rw [List.append_nil] at hdata
    exact hdata.symm

theorem taken_of_no_failure {data : Bytes} {answers : List Int} (h : (deliver data answers).failure = none) :
    (deliver data answers).taken = data := (taken_eq_iff data answers).2 h

/-- Interruptions and full pipes make no difference to what is taken, nor to how the delivery ends. -/
theorem deliver_filter_retries (data : Bytes) (answers : List Int) :
    (deliver data (answers.filter fun a => ¬IsRetry a)).pieces = (deliver data answers).pieces ∧
      (deliver data (answers.filter fun a => ¬IsRetry a)).failure = (deliver data answers).failure := by
  induction answers generalizing data with
  | nil => exact ⟨rfl, rfl⟩
  | cons answer more ih =>
    by_cases hdata : data = []
    · subst hdata
      simp only [deliver_nil, and_self]
    by_cases hretry : IsRetry answer
    · rw [List.filter_cons_of_neg (by simpa using hretry), deliver_retry hdata hretry]
      exact ih data
    · rw [List.filter_cons_of_pos (by simpa using hretry)]
      rcases answer_cases answer with h | ⟨n, hn, rfl⟩ | ⟨failure, hfatal⟩
      · exact absurd h hretry
      · rw [deliver_take hdata hn, deliver_take hdata hn]
        exact ⟨congrArg (List.cons _) (ih (data.drop n)).1, (ih (data.drop n)).2⟩
      · obtain ⟨pieces, lastError, -, hdeliver⟩ := deliver_failure hdata hfatal
        rw [hdeliver, hdeliver]
        exact ⟨rfl, rfl⟩

/-- A delivery takes everything, or fails after a first part.  At each of its moments the pieces that were taken are the
data without the rest, so retries lose and repeat nothing; leaving them out makes no difference.  If the delivery does
not fail, everything was taken, and nothing was written since.  It fails exactly if a write that is made while something
is left takes nothing or fails for another reason than an interruption or a full pipe; this is the last write, and what
was taken before it is not everything.  Of no data nothing is written. -/
theorem takes_all_or_fails (data : Bytes) (answers : List Int) :
    (∀ made pieces rest, Reaches data made pieces rest → pieces.flatten ++ rest = data) ∧
    (deliver data answers).taken <+: data ∧
    ((deliver data (answers.filter fun a => ¬IsRetry a)).pieces = (deliver data answers).pieces ∧
      (deliver data (answers.filter fun a => ¬IsRetry a)).failure = (deliver data answers).failure) ∧
    ((deliver data answers).failure = none →
      (deliver data answers).taken = data ∧ Completes data answers (deliver data answers)) ∧
    (∀ failure, (deliver data answers).failure = some failure ↔ ∃ pieces more, StopsAt data answers pieces failure more) ∧
    (∀ pieces failure more, StopsAt data answers pieces failure more → (deliver data answers).unused = more ∧
      (deliver data answers).taken = pieces.flatten ∧ (deliver data answers).taken ≠ data) ∧
    deliver [] answers = { unused := answers } := by
  have hends := deliver_ends data answers
  refine ⟨fun _ _ _ h => h.flatten_append, taken_prefix data answers, deliver_filter_retries data answers, ?_, ?_, ?_,
    deliver_nil answers⟩
  · intro hnone
    rcases hends with ⟨-, hcompletes⟩ | ⟨pieces, failure, more, hstops⟩
    · exact ⟨hcompletes.taken_eq, hcompletes⟩
    · cases hnone.symm.trans hstops.deliver_eq.2.2
  · intro failure
    constructor
    · intro hfailure
      rcases hends with ⟨hnone, -⟩ | ⟨pieces, failure', more, hstops⟩
      · cases hnone.symm.trans hfailure
      · cases hfailure.symm.trans hstops.deliver_eq.2.2
        exact ⟨pieces, more, hstops⟩
    · rintro ⟨pieces, more, hstops⟩
      exact hstops.deliver_eq.2.2
  · intro pieces failure more hstops
    obtain ⟨htaken, hunused, hfailure⟩ := hstops.deliver_eq
    exact ⟨hunused, htaken, by simp [taken_eq_iff, hfailure]⟩

/-- Of four bytes one is taken, then there is an interruption, then one more is taken, and then the device is full: the
delivery stops, and the last answer is not needed. -/
theorem takes_half_until_full :
    let answers : List Int := [1, -4, 1, -28, 5]
    StopsAt [0x61, 0x62, 0x63, 0x64] answers [[0x61], [0x62]] (.failed 28) [5] ∧
      (deliver [0x61, 0x62, 0x63, 0x64] answers).unused = [5] ∧
      (deliver [0x61, 0x62, 0x63, 0x64] answers).taken = [0x61, 0x62] := by
  intro answers
  have hreaches : Reaches [0x61, 0x62, 0x63, 0x64] [1, -4, 1] [[0x61], [0x62]] [0x63, 0x64] :=
    .took (n := 1) (by decide) (by decide) (.retried (by decide) (by decide)
      (.took (n := 1) (by decide) (by decide) (.start _)))
  have hstops : StopsAt [0x61, 0x62, 0x63, 0x64] answers [[0x61], [0x62]] (.failed 28) [5] :=
    ⟨[1, -4, 1], _, -28, hreaches, by decide, by decide, rfl⟩
  obtain ⟨hunused, htaken, -⟩ := (takes_all_or_fails _ answers).2.2.2.2.2.1 _ _ _ hstops
  exact ⟨hstops, hunused, htaken⟩

end ScreenWatch.Host.Delivery
