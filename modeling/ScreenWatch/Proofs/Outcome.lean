/-!
# Outcomes of actions

Ways to speak of an action that keeps its state also when it fails: `Succeeds` says that it ends well and what it
gives and leaves, `Leaves` says what it leaves in both cases, `Ends` says it of each case apart, and `EndAlike` compares
what two actions leave.  Each of them has one rule for each way to build an action, so that facts about actions follow
their text.
-/

namespace ScreenWatch

variable {ε σ α β : Type}

/-- The action ends well from `s`, and `Q` holds of what it gives and leaves. -/
def Succeeds (act : EStateM ε σ α) (s : σ) (Q : α → σ → Prop) : Prop := ∃ a t, act s = .ok a t ∧ Q a t

instance (act : EStateM ε σ α) (s : σ) (Q : α → σ → Prop) [∀ a t, Decidable (Q a t)] : Decidable (Succeeds act s Q) :=
  match h : act s with
  | .ok a t => decidable_of_iff (Q a t) ⟨fun hq => ⟨a, t, h, hq⟩, fun ⟨_, _, h', hq⟩ => by
      cases h.symm.trans h'
      exact hq⟩
  | .error _ _ => isFalse fun ⟨_, _, h', _⟩ => nomatch h.symm.trans h'

/-- The state that the action leaves, whether it ends well or not. -/
def left (act : EStateM ε σ α) (s : σ) : σ :=
  match act s with
  | .ok _ t => t
  | .error _ t => t

/-- Whether the action ends well or not, `P` holds of the state that it leaves. -/
def Leaves (act : EStateM ε σ α) (s : σ) (P : σ → Prop) : Prop := P (left act s)

theorem left_of_ok {act : EStateM ε σ α} {a : α} {s t : σ} (h : act s = .ok a t) : left act s = t := by
  unfold left
  rw [h]

theorem left_of_error {act : EStateM ε σ α} {e : ε} {s t : σ} (h : act s = .error e t) : left act s = t := by
  unfold left
  rw [h]

theorem bind_of_ok {x : EStateM ε σ α} {f : α → EStateM ε σ β} {s t : σ} {a : α} (h : x s = .ok a t) :
    (x >>= f) s = f a t := by
  show EStateM.bind x f s = f a t
  unfold EStateM.bind
  rw [h]

theorem bind_of_error {x : EStateM ε σ α} {f : α → EStateM ε σ β} {s t : σ} {e : ε} (h : x s = .error e t) :
    (x >>= f) s = .error e t := by
  show EStateM.bind x f s = .error e t
  unfold EStateM.bind
  rw [h]

/-- An action that ends well has parts that end well. -/
theorem exists_of_bind_eq_ok {x : EStateM ε σ α} {f : α → EStateM ε σ β} {s u : σ} {b : β}
    (h : (x >>= f) s = .ok b u) : ∃ a t, x s = .ok a t ∧ f a t = .ok b u := by
  cases hx : x s with
  | ok a t => exact ⟨a, t, rfl, (bind_of_ok hx).symm.trans h⟩
  | error e t =>
    rw [bind_of_error hx] at h
    cases h

theorem left_bind_of_ok {x : EStateM ε σ α} {f : α → EStateM ε σ β} {s t : σ} {a : α} (h : x s = .ok a t) :
    left (x >>= f) s = left (f a) t := by
  unfold left
  rw [bind_of_ok h]

theorem left_bind_pure (x : EStateM ε σ α) (f : α → β) (s : σ) : left (x >>= fun a => pure (f a)) s = left x s := by
  cases h : x s with
  | ok a t =>
    rw [left_bind_of_ok h, left_of_ok h]
    rfl
  | error e t => rw [left_of_error (bind_of_error h), left_of_error h]

theorem tryCatch_of_ok {act : EStateM ε σ α} {handler : ε → EStateM ε σ α} {s t : σ} {a : α}
    (h : act s = .ok a t) : tryCatch act handler s = .ok a t := by
  show EStateM.tryCatch act handler s = _
  unfold EStateM.tryCatch
  rw [h]

theorem tryCatch_of_error {act : EStateM ε σ α} {handler : ε → EStateM ε σ α} {s t : σ} {e : ε}
    (h : act s = .error e t) : tryCatch act handler s = handler e t := by
  show EStateM.tryCatch act handler s = _
  unfold EStateM.tryCatch
  rw [h]
  rfl

/-- An action that returns where it would fail leaves what it leaves when it fails. -/
theorem left_tryCatch_pure (x : EStateM ε σ α) (f : ε → α) (s : σ) :
    left (tryCatch x fun e => pure (f e)) s = left x s := by
  cases h : x s with
  | ok a t => rw [left_of_ok (tryCatch_of_ok h), left_of_ok h]
  | error e t =>
    rw [left_of_error h]
    exact left_of_ok (tryCatch_of_error h)

theorem get_bind {f : σ → EStateM ε σ β} (s : σ) : (get >>= f) s = f s s := rfl

/-- Actions that leave the state as it is give what each of them gives. -/
theorem mapM_of_ok {l : List α} {f : α → EStateM ε σ β} {g : α → β} {s : σ} (h : ∀ a ∈ l, f a s = .ok (g a) s) :
    l.mapM f s = .ok (l.map g) s := by
  induction l with
  | nil => rfl
  | cons a l ih =>
    have hrest := ih fun b hb => h b (by simp [hb])
    rw [List.mapM_cons, bind_of_ok (h a (by simp)), bind_of_ok hrest]
    rfl

/-! ### Actions that end well -/

namespace Succeeds

variable {Q : α → σ → Prop} {R : β → σ → Prop} {s : σ}

theorem mono {act : EStateM ε σ α} {Q' : α → σ → Prop} (h : Succeeds act s Q) (hQ : ∀ a t, Q a t → Q' a t) :
    Succeeds act s Q' := by
  obtain ⟨a, t, ha, hq⟩ := h
  exact ⟨a, t, ha, hQ a t hq⟩

theorem pure {a : α} (h : Q a s) : Succeeds (Pure.pure a : EStateM ε σ α) s Q := ⟨a, s, rfl, h⟩

theorem bind {x : EStateM ε σ α} {f : α → EStateM ε σ β} (hx : Succeeds x s Q)
    (hf : ∀ a t, Q a t → Succeeds (f a) t R) : Succeeds (x >>= f) s R := by
  obtain ⟨a, t, ha, hq⟩ := hx
  obtain ⟨b, u, hb, hr⟩ := hf a t hq
  exact ⟨b, u, by rw [bind_of_ok ha, hb], hr⟩

theorem of_ok {act : EStateM ε σ α} {a : α} {t : σ} (h : Succeeds act s Q) (ha : act s = .ok a t) : Q a t := by
  obtain ⟨b, u, hb, hq⟩ := h
  cases ha.symm.trans hb
  exact hq

theorem of_eq {act act' : EStateM ε σ α} {s' : σ} (h : Succeeds act' s' Q) (he : act s = act' s') :
    Succeeds act s Q := by
  unfold Succeeds at h ⊢
  rwa [he]

theorem discard {act : EStateM ε σ α} {P : σ → Prop} (h : Succeeds act s fun _ => P) :
    Succeeds (discard act) s fun _ => P := by
  obtain ⟨a, t, ha, hp⟩ := h
  exact ⟨(), t, bind_of_ok ha, hp⟩

theorem get_bind {f : σ → EStateM ε σ β} (h : Succeeds (f s) s R) : Succeeds (get >>= f) s R := h

theorem modify {f : σ → σ} {R : Unit → σ → Prop} (h : R () (f s)) :
    Succeeds (modify f : EStateM ε σ Unit) s R := ⟨(), f s, rfl, h⟩

/-- A loop over a list: what holds at its start and is kept by each round holds at its end. -/
theorem forM {l : List α} {f : α → EStateM ε σ Unit} (I : σ → Prop) (hs : I s)
    (hf : ∀ a ∈ l, ∀ t, I t → Succeeds (f a) t fun _ => I) : Succeeds (l.forM f) s fun _ => I := by
  induction l generalizing s with
  | nil => exact pure hs
  | cons a l ih =>
    refine bind (hf a (by simp) s hs) ?_
    intro _ t ht
    exact ih ht fun b hb => hf b (by simp [hb])

/-- A loop over the numbers below `n`, with a fact for the start of each round. -/
theorem forM_range {n : Nat} {f : Nat → EStateM ε σ Unit} (I : Nat → σ → Prop) (hs : I 0 s)
    (hf : ∀ i < n, ∀ t, I i t → Succeeds (f i) t fun _ => I (i + 1)) :
    Succeeds ((List.range n).forM f) s fun _ => I n := by
  -- The rounds from `k` on, so that the list of the induction is a suffix of the range.
  suffices ∀ m k t, k + m = n → I k t → Succeeds ((List.range' k m).forM f) t fun _ => I n by
    rw [List.range_eq_range']
    exact this n 0 s (by omega) hs
  intro m
  induction m with
  | zero =>
    intro k t hk ht
    obtain rfl : k = n := by omega
    exact pure ht
  | succ m ih =>
    intro k t hk ht
    rw [List.range'_succ]
    refine bind (hf k (by omega) t ht) ?_
    intro _ u hu
    exact ih (k + 1) u (by omega) hu

end Succeeds

/-! ### What an action leaves -/

namespace Leaves

variable {P : σ → Prop} {s : σ}

theorem of_ok {act : EStateM ε σ α} {a : α} {t : σ} (h : act s = .ok a t) (ht : P t) : Leaves act s P := by
  rw [Leaves, left_of_ok h]
  exact ht

theorem of_error {act : EStateM ε σ α} {e : ε} {t : σ} (h : act s = .error e t) (ht : P t) : Leaves act s P := by
  rw [Leaves, left_of_error h]
  exact ht

theorem pure {a : α} (h : P s) : Leaves (Pure.pure a : EStateM ε σ α) s P := h

theorem throw {e : ε} (h : P s) : Leaves (throw e : EStateM ε σ α) s P := h

theorem get_bind {f : σ → EStateM ε σ α} (h : Leaves (f s) s P) : Leaves (get >>= f) s P := h

theorem bind {x : EStateM ε σ α} {f : α → EStateM ε σ β} (hx : Leaves x s P)
    (hf : ∀ a t, P t → Leaves (f a) t P) : Leaves (x >>= f) s P := by
  cases h : x s with
  | ok a t =>
    rw [Leaves, left_of_ok h] at hx
    rw [Leaves, left, bind_of_ok h]
    exact hf a t hx
  | error e t =>
    rw [Leaves, left_of_error h] at hx
    exact of_error (bind_of_error h) hx

theorem modify {f : σ → σ} (h : P (f s)) : Leaves (modify f : EStateM ε σ Unit) s P := h

theorem forM {l : List α} {f : α → EStateM ε σ Unit} (hs : P s) (hf : ∀ a ∈ l, ∀ t, P t → Leaves (f a) t P) :
    Leaves (l.forM f) s P := by
  induction l generalizing s with
  | nil => exact pure hs
  | cons a l ih =>
    refine bind (hf a (by simp) s hs) ?_
    intro _ t ht
    exact ih ht fun b hb => hf b (by simp [hb])

end Leaves

theorem Succeeds.leaves {act : EStateM ε σ α} {s : σ} {P : σ → Prop} (h : Succeeds act s fun _ => P) :
    Leaves act s P := by
  obtain ⟨a, t, ha, ht⟩ := h
  exact .of_ok ha ht

theorem Succeeds.tryCatch {act : EStateM ε σ α} {handler : ε → EStateM ε σ α} {s : σ} {P : σ → Prop}
    {Q : α → σ → Prop} (h : Leaves act s P) (hok : ∀ a t, P t → Q a t)
    (herror : ∀ e t, P t → Succeeds (handler e) t Q) : Succeeds (tryCatch act handler) s Q := by
  cases hact : act s with
  | ok a t =>
    rw [Leaves, left_of_ok hact] at h
    exact ⟨a, t, tryCatch_of_ok hact, hok a t h⟩
  | error e t =>
    rw [Leaves, left_of_error hact] at h
    obtain ⟨a, u, ha, hq⟩ := herror e t h
    exact ⟨a, u, (tryCatch_of_error hact).trans ha, hq⟩

/-! ### Both ends of an action -/

/-- If the action ends well, `Q` holds of what it gives and leaves, and otherwise `R` of what it leaves. -/
def Ends (act : EStateM ε σ α) (s : σ) (Q : α → σ → Prop) (R : σ → Prop) : Prop :=
  match act s with
  | .ok a t => Q a t
  | .error _ t => R t

namespace Ends

variable {act : EStateM ε σ α} {s t : σ} {Q : α → σ → Prop} {R : σ → Prop}

theorem of_ok {a : α} (h : Ends act s Q R) (ha : act s = .ok a t) : Q a t := by
  unfold Ends at h
  rwa [ha] at h

theorem of_error {e : ε} (h : Ends act s Q R) (he : act s = .error e t) : R t := by
  unfold Ends at h
  rwa [he] at h

theorem mono {Q' : α → σ → Prop} {R' : σ → Prop} (h : Ends act s Q R) (hQ : ∀ a t, Q a t → Q' a t)
    (hR : ∀ t, R t → R' t) : Ends act s Q' R' := by
  unfold Ends at h ⊢
  cases hact : act s with
  | ok a t =>
    rw [hact] at h
    exact hQ a t h
  | error e t =>
    rw [hact] at h
    exact hR t h

theorem exactly (act : EStateM ε σ α) (s : σ) :
    Ends act s (fun a t => act s = .ok a t) fun t => ∃ e, act s = .error e t := by
  unfold Ends
  cases act s with
  | ok a t => rfl
  | error e t => exact ⟨e, rfl⟩

theorem of_eq {act' : EStateM ε σ α} {s' : σ} (h : Ends act' s' Q R) (he : act s = act' s') : Ends act s Q R := by
  unfold Ends at h ⊢
  rwa [he]

theorem pure {a : α} (h : Q a s) : Ends (Pure.pure a : EStateM ε σ α) s Q R := h

theorem throw {e : ε} (h : R s) : Ends (throw e : EStateM ε σ α) s Q R := h

theorem get_bind {f : σ → EStateM ε σ α} (h : Ends (f s) s Q R) : Ends (get >>= f) s Q R := h

theorem bind {f : α → EStateM ε σ β} {Q' : β → σ → Prop} (h : Ends act s Q R)
    (hf : ∀ a t, Q a t → Ends (f a) t Q' R) : Ends (act >>= f) s Q' R := by
  unfold Ends
  cases hact : act s with
  | ok a t =>
    rw [bind_of_ok hact]
    exact hf a t (h.of_ok hact)
  | error e t =>
    rw [bind_of_error hact]
    exact h.of_error hact

theorem leaves {P : σ → Prop} (h : Ends act s (fun _ => P) P) : Leaves act s P := by
  cases hact : act s with
  | ok a t => exact .of_ok hact (h.of_ok hact)
  | error e t => exact .of_error hact (h.of_error hact)

end Ends

theorem Succeeds.ends {act : EStateM ε σ α} {s : σ} {Q : α → σ → Prop} {R : σ → Prop} (h : Succeeds act s Q) :
    Ends act s Q R := by
  obtain ⟨a, t, ha, hq⟩ := h
  unfold Ends
  rwa [ha]

/-! ### Two actions -/

/-- Both actions end well, or both with the same failure, and what they leave is related by `R`; what they give may
differ. -/
def EndAlike (x x' : EStateM ε σ α) (s s' : σ) (R : σ → σ → Prop) : Prop :=
  match x s, x' s' with
  | .ok _ t, .ok _ t' => R t t'
  | .error e t, .error e' t' => e = e' ∧ R t t'
  | _, _ => False

namespace EndAlike

variable {R : σ → σ → Prop} {s s' : σ}

theorem of_ok {x x' : EStateM ε σ α} {a a' : α} {t t' : σ} (h : x s = .ok a t) (h' : x' s' = .ok a' t')
    (hR : R t t') : EndAlike x x' s s' R := by
  unfold EndAlike
  rw [h, h']
  exact hR

theorem of_error {x x' : EStateM ε σ α} {e : ε} {t t' : σ} (h : x s = .error e t) (h' : x' s' = .error e t')
    (hR : R t t') : EndAlike x x' s s' R := by
  unfold EndAlike
  rw [h, h']
  exact ⟨rfl, hR⟩

theorem refl (hR : ∀ t, R t t) (x : EStateM ε σ α) (s : σ) : EndAlike x x s s R := by
  cases h : x s with
  | ok a t => exact of_ok h h (hR t)
  | error e t => exact of_error h h (hR t)

theorem cases {x x' : EStateM ε σ α} (h : EndAlike x x' s s' R) :
    (∃ a a' t t', x s = .ok a t ∧ x' s' = .ok a' t' ∧ R t t') ∨
      ∃ e t t', x s = .error e t ∧ x' s' = .error e t' ∧ R t t' := by
  unfold EndAlike at h
  cases hx : x s with
  | ok a t =>
    cases hx' : x' s' with
    | ok a' t' => exact .inl ⟨a, a', t, t', rfl, rfl, by rwa [hx, hx'] at h⟩
    | error e' t' => rw [hx, hx'] at h; exact h.elim
  | error e t =>
    cases hx' : x' s' with
    | ok a' t' => rw [hx, hx'] at h; exact h.elim
    | error e' t' =>
      rw [hx, hx'] at h
      obtain ⟨rfl, hR⟩ := h
      exact .inr ⟨e, t, t', rfl, rfl, hR⟩

theorem get_bind {f f' : σ → EStateM ε σ α} (h : EndAlike (f s) (f' s') s s' R) :
    EndAlike (get >>= f) (get >>= f') s s' R := h

theorem modify {f : σ → σ} (h : R (f s) (f s')) :
    EndAlike (modify f : EStateM ε σ Unit) (modify f : EStateM ε σ Unit) s s' R := h

theorem mono {R' : σ → σ → Prop} {x x' : EStateM ε σ α} (h : EndAlike x x' s s' R) (hR : ∀ t t', R t t' → R' t t') :
    EndAlike x x' s s' R' := by
  rcases h.cases with ⟨a, a', t, t', h, h', ht⟩ | ⟨e, t, t', h, h', ht⟩
  · exact of_ok h h' (hR t t' ht)
  · exact of_error h h' (hR t t' ht)

/-- Actions that end as two others do. -/
theorem of_eq {x x' y y' : EStateM ε σ α} {t t' : σ} (h : EndAlike y y' t t' R) (hx : x s = y t)
    (hx' : x' s' = y' t') : EndAlike x x' s s' R := by
  unfold EndAlike at h ⊢
  rwa [hx, hx']

/-- What is left is related, however the actions end. -/
theorem left_alike {x x' : EStateM ε σ α} (h : EndAlike x x' s s' R) : R (left x s) (left x' s') := by
  rcases h.cases with ⟨a, a', t, t', h, h', ht⟩ | ⟨e, t, t', h, h', ht⟩
  · rwa [left_of_ok h, left_of_ok h']
  · rwa [left_of_error h, left_of_error h']

/-- Of two actions that go on after others, the first ones may leave more alike than the whole. -/
theorem bind {R' : σ → σ → Prop} {x x' : EStateM ε σ α} {f f' : α → EStateM ε σ β} (hx : EndAlike x x' s s' R)
    (hR : ∀ t t', R t t' → R' t t') (hf : ∀ a a' t t', R t t' → EndAlike (f a) (f' a') t t' R') :
    EndAlike (x >>= f) (x' >>= f') s s' R' := by
  rcases hx.cases with ⟨a, a', t, t', h, h', ht⟩ | ⟨e, t, t', h, h', ht⟩
  · have hrest := hf a a' t t' ht
    unfold EndAlike at hrest ⊢
    rwa [bind_of_ok h, bind_of_ok h']
  · exact of_error (bind_of_error h) (bind_of_error h') (hR t t' ht)

/-- Two loops over one list: what is related at the start and after each round is related at the end. -/
theorem forM {l : List α} {f f' : α → EStateM ε σ Unit} (hs : R s s')
    (hf : ∀ a ∈ l, ∀ t t', R t t' → EndAlike (f a) (f' a) t t' R) : EndAlike (l.forM f) (l.forM f') s s' R := by
  induction l generalizing s s' with
  | nil => exact hs
  | cons a l ih =>
    refine bind (hf a (by simp) s s' hs) (fun _ _ h => h) ?_
    intro _ _ t t' ht
    exact ih ht fun b hb => hf b (by simp [hb])

end EndAlike

end ScreenWatch
