import ScreenWatch.Proofs.Emulator.Sequences

/-!
# Chunks

What the actions of a chunk do does not depend on the stream that is being read, and leaves it alone
(`apply_withStream`).  So it does not matter how the output of a program is cut into chunks (`take_append`), and nor
does it matter whether notices are left (`take_alike`).
-/

namespace ScreenWatch.Emulator

open Escape (Action Stream)

variable {e e' : Emulator} {notices : List Notice}

private theorem onScreen_withStream {α : Type} {edit : ScreenM α} {a : α} (h : onScreen edit e = .ok a e')
    (stream : Stream) : onScreen edit { e with stream } = .ok a { e' with stream } := by
  unfold onScreen at h ⊢
  dsimp only at h ⊢
  cases hedit : edit e.screen with
  | ok b screen =>
    rw [hedit] at h
    cases h
    rfl
  | error fault screen =>
    rw [hedit] at h
    cases h

private theorem dispatch_withStream {kind : Control.Kind} {final : Int} (h : dispatch kind final e = .ok notices e')
    (stream : Stream) : dispatch kind final { e with stream } = .ok notices { e' with stream } := by
  unfold dispatch dispatchBy at h ⊢
  rw [get_bind, get_bind] at h ⊢
  cases hf : Control.Function.ofFinal? kind final with
  | none =>
    rw [hf] at h
    cases h
    rfl
  | some f =>
    rw [hf] at h
    obtain ⟨_, t, hon, ht⟩ := exists_of_bind_eq_ok h
    cases ht
    exact (bind_of_ok (onScreen_withStream hon stream)).trans rfl

theorem apply_withStream {a : Action} (h : apply a e = .ok notices e') (stream : Stream) :
    apply a { e with stream } = .ok notices { e' with stream } := by
  cases a with
  | print c =>
    obtain ⟨_, t, hon, ht⟩ := exists_of_bind_eq_ok h
    cases ht
    exact (bind_of_ok (onScreen_withStream hon stream)).trans rfl
  | execute c => exact dispatch_withStream h stream
  | escDispatch c => exact dispatch_withStream h stream
  | csiDispatch c => exact dispatch_withStream (e := { e with sequence := e.sequence.flush }) h stream
  | clear | collect c | param c =>
    cases h
    rfl

private theorem applyAllFrom_withStream {found : List Notice} {actions : List Action}
    (h : applyAllFrom found actions e = .ok notices e') (stream : Stream) :
    applyAllFrom found actions { e with stream } = .ok notices { e' with stream } := by
  induction actions generalizing e found with
  | nil =>
    cases h
    rfl
  | cons a rest ih =>
    rw [applyAllFrom_cons] at h
    obtain ⟨first, t, ha, hrest⟩ := exists_of_bind_eq_ok h
    rw [applyAllFrom_cons, bind_of_ok (apply_withStream ha stream)]
    exact ih hrest

/-- Actions leave the stream alone: with the stream that they were asked for by, they leave the same. -/
private theorem stream_of_applyAllFrom {found : List Notice} {actions : List Action}
    (h : applyAllFrom found actions e = .ok notices e') : e'.stream = e.stream := by
  have hsame : applyAllFrom found actions e = .ok notices { e' with stream := e.stream } :=
    applyAllFrom_withStream h e.stream
  rw [h] at hsame
  have he : e' = { e' with stream := e.stream } := (EStateM.Result.ok.inj hsame).2
  rw [he]

private theorem applyAllFrom_append {found : List Notice} {first : List Action}
    (h : applyAllFrom found first e = .ok notices e') (rest : List Action) :
    applyAllFrom found (first ++ rest) e = applyAllFrom notices.reverse rest e' := by
  induction first generalizing e found with
  | nil =>
    cases h
    rw [List.reverse_reverse]
    rfl
  | cons a more ih =>
    rw [applyAllFrom_cons] at h
    obtain ⟨_, t, ha, hmore⟩ := exists_of_bind_eq_ok h
    rw [List.cons_append, applyAllFrom_cons, bind_of_ok ha]
    exact ih hmore

private theorem applyAllFrom_found {found : List Notice} {actions : List Action}
    (h : applyAllFrom found actions e = .ok notices e') (earlier : List Notice) :
    applyAllFrom (found ++ earlier) actions e = .ok (earlier.reverse ++ notices) e' := by
  induction actions generalizing e found with
  | nil =>
    cases h
    rw [← List.reverse_append]
    rfl
  | cons a rest ih =>
    rw [applyAllFrom_cons] at h
    obtain ⟨first, t, ha, hrest⟩ := exists_of_bind_eq_ok h
    rw [applyAllFrom_cons, bind_of_ok ha, ← List.append_assoc]
    exact ih hrest

/-- Two chunks are as good as one. -/
theorem take_append {a b : Bytes} {m n : List Notice} {e₁ e₂ : Emulator} (ha : take a e = .ok m e₁)
    (hb : take b e₁ = .ok n e₂) : take (a ++ b) e = .ok (m ++ n) e₂ := by
  have hfirst : applyAllFrom [] (e.stream.take a).1 { e with stream := (e.stream.take a).2 } = .ok m e₁ := ha
  have hstream : e₁.stream = (e.stream.take a).2 := stream_of_applyAllFrom hfirst
  have hrest : applyAllFrom [] (e₁.stream.take b).1 { e₁ with stream := (e₁.stream.take b).2 } = .ok n e₂ := hb
  rw [hstream] at hrest
  have hboth := applyAllFrom_append (applyAllFrom_withStream hfirst ((e.stream.take a).2.take b).2)
    ((e.stream.take a).2.take b).1
  have hend := applyAllFrom_found hrest m.reverse
  rw [List.nil_append, List.reverse_reverse] at hend
  show applyAllFrom [] (e.stream.take (a ++ b)).1 { e with stream := (e.stream.take (a ++ b)).2 } = _
  rw [Stream.take_append]
  exact hboth.trans hend

private theorem applyAllFrom_keeps_alike (h : Alike True e e') (actions : List Action) (found found' : List Notice) :
    EndAlike (applyAllFrom found actions) (applyAllFrom found' actions) e e' (Alike True) := by
  induction actions generalizing e e' found found' with
  | nil => exact .of_ok rfl rfl h
  | cons a rest ih => exact (apply_alike h (.inl trivial)).bind (fun _ _ ht => ht) fun _ _ _ _ ht => ih ht _ _

theorem take_alike (h : Alike True e e') (chunk : Bytes) :
    EndAlike (take chunk) (take chunk) e e' (Alike True) := by
  have halike : Alike True { e with stream := (e.stream.take chunk).2 } { e' with stream := (e.stream.take chunk).2 } :=
    ⟨rfl, h.screen_eq, h.sequence_eq⟩
  unfold take takeBy
  refine .get_bind ?_
  rw [← h.stream_eq]
  exact applyAllFrom_keeps_alike halike _ [] []

end ScreenWatch.Emulator
