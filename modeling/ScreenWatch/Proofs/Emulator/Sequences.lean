import ScreenWatch.Proofs.Emulator.Feeding

/-!
# What a sequence brings along

A control sequence is carried out with what its own text says, however long it is (`take_written`), and with nothing
else: what an earlier sequence has left behind does not show (`take_forgets`).  In plain text, and within an operating
system command, nothing reads what was collected until a new sequence has voided it (`StartsOver`), and the functions
of controls and escape sequences never do.
-/

namespace ScreenWatch

/-! ### Nothing is left over -/

namespace Escape

/-- Before a control sequence is carried out, what was collected is made void. -/
def StartsOver : List Action → Prop
  | [] | .clear :: _ => True
  | .csiDispatch _ :: _ => False
  | .print _ :: rest | .execute _ :: rest | .collect _ :: rest | .param _ :: rest | .escDispatch _ :: rest =>
    StartsOver rest

theorem startsOver_run {state : State} (h : state = .ground ∨ state = .oscString) (codes : List Int) :
    StartsOver (run state codes).1 := by
  induction codes generalizing state with
  | nil => trivial
  | cons c codes ih =>
    rw [run_cons]
    rcases h with rfl | rfl
    · -- Plain text is left by ESC only, which starts a new sequence.
      simp only [step]
      repeat' split
      · trivial
      all_goals exact ih (.inl rfl)
    · simp only [step]
      split
      · exact ih (.inl rfl)
      · exact ih (.inr rfl)

end Escape

namespace Control.Function

/-- Of the functions, only those of control sequences read what was collected. -/
theorem perform_eq_of_ne_csi {kind : Kind} (hkind : kind ≠ .csi) {final : Int} {f : Function}
    (hf : ofFinal? kind final = some f) (q q' : Sequence) : f.perform q = f.perform q' := by
  have hcommands : ∀ s, f.commands q s = f.commands q' s := by
    intro s
    unfold ofFinal? at hf
    dsimp only at hf
    split at hf
    all_goals first | exact (hkind rfl).elim | cases hf <;> rfl
  unfold perform performBy
  simp only [hcommands]

end Control.Function

namespace Emulator

open Escape (Action StartsOver)

variable {e e' : Emulator}

/-- The emulators read on at the same place and show the same screen; they have collected the same if that is known. -/
structure Alike (known : Prop) (e e' : Emulator) : Prop where
  stream_eq : e.stream = e'.stream
  screen_eq : e.screen = e'.screen
  sequence_eq : known → e.sequence = e'.sequence

theorem onScreen_alike {known : Prop} (h : Alike known e e') {α : Type} (edit : ScreenM α) :
    EndAlike (onScreen edit) (onScreen edit) e e' (Alike known) := by
  cases hedit : edit e.screen with
  | ok a t =>
    have hedit' : edit e'.screen = .ok a t := by rw [← h.screen_eq, hedit]
    exact .of_ok (onScreen_of_ok hedit) (onScreen_of_ok hedit') ⟨h.stream_eq, rfl, h.sequence_eq⟩
  | error fault t =>
    have hedit' : edit e'.screen = .error fault t := by rw [← h.screen_eq, hedit]
    exact .of_error (onScreen_of_error hedit) (onScreen_of_error hedit') ⟨h.stream_eq, rfl, h.sequence_eq⟩

theorem dispatch_alike {known : Prop} (h : Alike known e e') {kind : Control.Kind} (hkind : known ∨ kind ≠ .csi)
    (final : Int) : EndAlike (dispatch kind final) (dispatch kind final) e e' (Alike known) := by
  unfold dispatch dispatchBy
  refine .get_bind (.get_bind ?_)
  cases hf : Control.Function.ofFinal? kind final with
  | none => exact .of_ok rfl rfl h
  | some f =>
    have hperform : f.performBy Screen.editor e'.sequence = f.performBy Screen.editor e.sequence := by
      rcases hkind with hk | hk
      · rw [h.sequence_eq hk]
      · exact Control.Function.perform_eq_of_ne_csi hk hf _ _
    dsimp only
    rw [hperform]
    exact (onScreen_alike h _).bind (fun _ _ ht => ht) fun _ _ _ _ ht => .of_ok rfl rfl ht

/-- An action keeps what is alike, unless it reads what may be different. -/
theorem apply_alike {known : Prop} (h : Alike known e e') {a : Action} (ha : known ∨ ∀ c, a ≠ .csiDispatch c) :
    EndAlike (apply a) (apply a) e e' (Alike known) := by
  have collected (f : Control.Sequence → Control.Sequence) :
      Alike known { e with sequence := f e.sequence } { e' with sequence := f e'.sequence } :=
    ⟨h.stream_eq, h.screen_eq, fun hk => congrArg f (h.sequence_eq hk)⟩
  cases a with
  | print c => exact (onScreen_alike h _).bind (fun _ _ ht => ht) fun _ _ _ _ ht => .of_ok rfl rfl ht
  | execute c => exact dispatch_alike h (.inr (by decide)) c
  | clear => exact .of_ok rfl rfl (collected fun _ => .empty)
  | collect c => exact .of_ok rfl rfl (collected (·.collect c))
  | param c => exact .of_ok rfl rfl (collected (·.pushParam c))
  | escDispatch c => exact dispatch_alike h (.inr (by decide)) c
  | csiDispatch c =>
    have hknown : known := ha.resolve_right fun hc => hc c rfl
    exact dispatch_alike (collected (·.flush)) (.inl hknown) c

/-- What was collected before does not show in what the actions leave, if it is the same or made void before it is
read. -/
theorem applyAllFrom_alike {known : Prop} (h : Alike known e e') {actions : List Action}
    (ha : known ∨ StartsOver actions) (found found' : List Notice) :
    EndAlike (applyAllFrom found actions) (applyAllFrom found' actions) e e'
      fun t t' => t.screen = t'.screen ∧ t.stream = t'.stream := by
  have seen {known : Prop} (e e' : Emulator) (h : Alike known e e') : e.screen = e'.screen ∧ e.stream = e'.stream :=
    ⟨h.screen_eq, h.stream_eq⟩
  induction actions generalizing known e e' found found' with
  | nil => exact .of_ok rfl rfl (seen e e' h)
  | cons a rest ih =>
    by_cases hclear : a = .clear
    · -- From here on the same has been collected.
      have hvoid : EndAlike (apply a) (apply a) e e' (Alike True) := by
        rw [hclear]
        exact .of_ok rfl rfl ⟨h.stream_eq, h.screen_eq, fun _ => rfl⟩
      exact hvoid.bind seen fun _ _ _ _ ht => ih ht (.inl trivial) _ _
    · have hread : known ∨ ∀ c, a ≠ .csiDispatch c := by
        refine ha.imp_right ?_
        rintro hs c rfl
        exact hs
      have hrest : known ∨ StartsOver rest := by
        refine ha.imp_right fun hs => ?_
        cases a <;> first | exact hs | exact (hclear rfl).elim | exact hs.elim
      exact (apply_alike h hread).bind seen fun _ _ _ _ ht => ih ht hrest _ _

/-- Nothing that was collected before shows on the screen.  Two emulators that read plain text, or an operating system
command, at the same place and show the same screen, take every chunk alike and show the same screen again, whatever
they have collected and whether or not they leave notices. -/
theorem take_forgets (hstream : e.stream = e'.stream) (hscreen : e.screen = e'.screen)
    (hstate : e.stream.state = .ground ∨ e.stream.state = .oscString) (chunk : Bytes) :
    EndAlike (take chunk) (take chunk) e e' fun t t' => t.screen = t'.screen ∧ t.stream = t'.stream := by
  obtain ⟨actions, stream, htake⟩ : ∃ actions stream, e.stream.take chunk = (actions, stream) := ⟨_, _, rfl⟩
  have hstart : StartsOver actions := by
    rw [← show (e.stream.take chunk).1 = actions from congrArg Prod.fst htake]
    exact Escape.startsOver_run hstate _
  unfold take takeBy
  refine .get_bind ?_
  rw [← hstream, htake]
  have halike : Alike False { e with stream } { e' with stream } := ⟨rfl, hscreen, False.elim⟩
  exact applyAllFrom_alike halike (.inr hstart) [] []

/-- A sequence without parameters, after an unfinished one that asked for the alternate screen and after none. -/
theorem take_forgets_alternate :
    (Escape.Stream.start.state = .ground ∨ Escape.Stream.start.state = .oscString) ∧
      EndAlike (take [0x1B, 0x5B, 0x68, 0x78]) (take [0x1B, 0x5B, 0x68, 0x78])
        { screen := .empty 2 1, sequence := ⟨[1049], [0x31], [0x3F]⟩, debug := true } { screen := .empty 2 1 }
        fun t t' => t.screen = t'.screen ∧ t.stream = t'.stream := by
  have hstate : Escape.Stream.start.state = .ground ∨ Escape.Stream.start.state = .oscString := .inl rfl
  exact ⟨hstate, @take_forgets ⟨.start, ⟨[1049], [0x31], [0x3F]⟩, .empty 2 1, true⟩ ⟨.start, .empty, .empty 2 1, false⟩
    rfl rfl hstate _⟩

/-! ### What the text says -/

open Control (Sequence)

/-- The body of a control sequence is collected, and leaves no notice. -/
theorem applyAllFrom_body (found : List Notice) (body : Bytes) (rest : List Action) (e : Emulator) :
    applyAllFrom found (body.map Escape.bodyAction ++ rest) e =
      applyAllFrom found rest { e with sequence := body.foldl Sequence.takeByte e.sequence } := by
  induction body generalizing e with
  | nil => rfl
  | cons b body ih =>
    rw [List.map_cons, List.cons_append, applyAllFrom_cons, bind_of_ok (apply_bodyAction b e)]
    exact ih _

private theorem applyAll_singleton (a : Action) (e : Emulator) : applyAll [a] e = apply a e := by
  unfold applyAll
  rw [applyAllFrom_cons]
  cases h : apply a e with
  | ok notices t =>
    rw [bind_of_ok h, List.append_nil]
    exact congrArg (EStateM.Result.ok · t) notices.reverse_reverse
  | error fault t => rw [bind_of_error h]

/-- A control function does not change what was collected. -/
theorem dispatch_leaves_sequence (kind : Control.Kind) (final : Int) (e : Emulator) :
    Leaves (dispatch kind final) e fun t => t.sequence = e.sequence := by
  unfold dispatch dispatchBy
  refine .get_bind (.get_bind ?_)
  cases Control.Function.ofFinal? kind final with
  | none => exact .pure rfl
  | some f =>
    have hscreen : Leaves (onScreen (f.perform e.sequence)) e fun t => t.sequence = e.sequence := onScreen_leaves rfl
    exact .bind hscreen fun _ _ ht => .pure ht

/-- A control sequence is carried out with what its body says, and this is what has been collected then, whatever had
been collected before. -/
theorem take_written {e : Emulator} (hstate : e.stream.state = .ground) (hpending : e.stream.decoder.isPending = false)
    {body : Bytes} (hbody : ∀ b ∈ body, Escape.IsBody b) {final : UInt8} (hfinal : Escape.IsFinal final) :
    take ([0x1B, 0x5B] ++ body ++ [final]) e =
        dispatch .csi final.toNat { e with sequence := .written body } ∧
      (left (take ([0x1B, 0x5B] ++ body ++ [final])) e).sequence = .written body := by
  have hstream : e.stream = .start := by
    obtain ⟨⟨decoder, state⟩, sequence, screen, debug⟩ := e
    obtain rfl : state = .ground := hstate
    obtain rfl := Utf8.Decoder.eq_start_of_not_pending hpending
    rfl
  have hcollected : (body.foldl Sequence.takeByte .empty).flush = .written body :=
    Sequence.ofBody_eq_written hbody
  have htake : take ([0x1B, 0x5B] ++ body ++ [final]) e =
      dispatch .csi final.toNat { e with sequence := .written body } := by
    unfold take takeBy
    rw [get_bind, hstream, Escape.take_csi hbody hfinal, ← hcollected]
    exact (applyAllFrom_body [] body _ _).trans (applyAll_singleton _ _)
  refine ⟨htake, ?_⟩
  have hleaves := dispatch_leaves_sequence .csi final.toNat { e with sequence := .written body }
  rwa [Leaves, left, ← htake] at hleaves

/-- Twenty zeros in front of a seven, twenty nines, an empty field and an intermediate character. -/
theorem take_written_long :
    (left (take ([0x1B, 0x5B] ++ (List.replicate 20 0x30 ++ 0x37 :: 0x3B :: List.replicate 20 0x39
        ++ [0x3B, 0x3B, 0x3F]) ++ [0x6D]))
      { screen := .empty 2 1, sequence := ⟨[9], [0x31], [0x21]⟩ }).sequence = ⟨[7, 65535, 0], [], [0x3F]⟩ := by
  have hbody : ∀ b ∈ List.replicate 20 0x30 ++ 0x37 :: 0x3B :: List.replicate 20 0x39 ++ [0x3B, 0x3B, 0x3F],
      Escape.IsBody b := Escape.forall_isBody (by decide)
  have hcollected := (@take_written { screen := .empty 2 1, sequence := ⟨[9], [0x31], [0x21]⟩ } rfl rfl _ hbody 0x6D
    (by decide)).2
  exact hcollected.trans (by decide)

end Emulator

end ScreenWatch
