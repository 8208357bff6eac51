import ScreenWatch.Emulator
import ScreenWatch.Proofs.Control.Parameters
import ScreenWatch.Proofs.Emulator.Sound
import ScreenWatch.Proofs.Escape.Tokens
import ScreenWatch.Proofs.Utf8.RoundTrip

/-!
# Feeding an emulator

An emulator is at rest if it reads no sequence.  `Turns bytes s t` says that the bytes take every emulator that is at
rest and shows `s` to one that is at rest and shows `t`, whatever else it holds.  Such pieces are put one after
another (`Turns.append`); the pieces are characters (`turns_print`), controls (`turns_control`) and control sequences
(`turns_csi`).
-/

namespace ScreenWatch

/-! ### ASCII -/

theorem Utf8.run_ascii {bytes : Bytes} (h : ∀ b ∈ bytes, b ≤ 0x7F) :
    Decoder.start.run bytes = (bytes.map fun b => (b.toNat : Int), .start) := by
  induction bytes with
  | nil => rfl
  | cons b rest ih =>
    have hb : Decoder.start.step b = ([(b.toNat : Int)], .start) := if_pos (h b (by simp))
    have hrest := ih fun c hc => h c (by simp [hc])
    rw [Decoder.run_cons, hb, hrest]
    rfl

namespace Escape

/-- What a byte between `ESC [` and the final one asks for. -/
def bodyAction (b : UInt8) : Action := bodyCodeAction b.toNat

/-- The byte may stand between `ESC [` and the final one. -/
def IsBody (b : UInt8) : Prop := (b.toNat : Int) ∈ bodyCodes

instance (b : UInt8) : Decidable (IsBody b) := decidable_of_iff _ mem_bodyCodes.symm

/-- The byte is ASCII and ends a control sequence. -/
def IsFinal (b : UInt8) : Prop := b ≤ 0x7F ∧ (b.toNat : Int) ∉ bodyCodes

instance (b : UInt8) : Decidable (IsFinal b) :=
  decidable_of_iff (b ≤ 0x7F ∧ ¬ (isParameter b.toNat = true ∨ isIntermediate b.toNat = true))
    (and_congr_right fun _ => not_congr mem_bodyCodes.symm)

/-- The bytes of a control sequence are ASCII if its body and its final byte are. -/
theorem ascii_csi {body : Bytes} (hbody : ∀ b ∈ body, b ≤ 0x7F) {final : UInt8} (hf : final ≤ 0x7F) :
    ∀ b ∈ [0x1B, 0x5B] ++ body ++ [final], b ≤ 0x7F := by
  intro b hb
  simp only [List.cons_append, List.nil_append, List.mem_cons, List.mem_append, List.not_mem_nil, or_false] at hb
  rcases hb with rfl | rfl | hb | rfl
  · decide
  · decide
  · exact hbody b hb
  · exact hf

private theorem IsBody.le {b : UInt8} (h : IsBody b) : b ≤ 0x7F := by
  have hall : ∀ c ∈ bodyCodes, c ≤ 0x7F := by decide
  have hle := hall _ h
  simp only [UInt8.le_iff_toNat_le, UInt8.reduceToNat]
  omega

theorem forall_isBody {body : Bytes} (h : body.all fun b => decide (IsBody b)) : ∀ b ∈ body, IsBody b := by
  simpa using h

/-- The bytes of a control sequence are one token. -/
theorem take_csi {body : Bytes} (hbody : ∀ b ∈ body, IsBody b) {final : UInt8} (hf : IsFinal final) :
    Stream.start.take ([0x1B, 0x5B] ++ body ++ [final]) =
      (.clear :: (body.map bodyAction ++ [.csiDispatch final.toNat]), .start) := by
  have hascii := ascii_csi (fun b hb => (hbody b hb).le) hf.1
  have hcodes : ∀ c ∈ body.map fun b : UInt8 => (b.toNat : Int), c ∈ bodyCodes := List.forall_mem_map.2 hbody
  have hrun := run_streamOf [.sequence _ hcodes final.toNat hf.2] .nothing
  have hstream : ([0x1B, 0x5B] ++ body ++ [final]).map (fun b : UInt8 => (b.toNat : Int)) =
      streamOf [.sequence _ hcodes final.toNat hf.2] .nothing := by
    simp [streamOf, Token.codes, Beginning.codes]
  simp only [Stream.take, Stream.start]
  rw [Utf8.run_ascii hascii, hstream]
  dsimp only
  rw [hrun]
  simp [actionsOf, Token.actions, Beginning.actions, Beginning.state, Function.comp_def, bodyAction]

end Escape

namespace Emulator

open Escape (Action Stream)

/-- The actions, one after another, take the emulator from `e` to `e'`. -/
inductive Applies : List Action → Emulator → Emulator → Prop
  | nil {e : Emulator} : Applies [] e e
  | cons {a : Action} {rest : List Action} {notices : List Notice} {e e' e'' : Emulator} :
    apply a e = .ok notices e' → Applies rest e' e'' → Applies (a :: rest) e e''

theorem Applies.append {first rest : List Action} {e e' e'' : Emulator} (h : Applies first e e')
    (h' : Applies rest e' e'') : Applies (first ++ rest) e e'' := by
  induction h with
  | nil => exact h'
  | cons ha _ ih => exact .cons ha (ih h')

theorem Applies.applyAllFrom {actions : List Action} {e e' : Emulator} (h : Applies actions e e')
    (found : List Notice) : ∃ notices, applyAllFrom found actions e = .ok notices e' := by
  induction h generalizing found with
  | nil => exact ⟨_, rfl⟩
  | cons ha _ ih =>
    obtain ⟨notices, h⟩ := ih _
    refine ⟨notices, ?_⟩
    rw [applyAllFrom_cons, bind_of_ok ha, h]

/-- The bytes turn the screen `s` of an emulator at rest into `t`, and leave it at rest. -/
def Turns (bytes : Bytes) (s t : Screen) : Prop :=
  ∃ actions, Stream.start.take bytes = (actions, .start) ∧
    ∀ e : Emulator, e.screen = s → ∃ e', Applies actions e e' ∧ e'.screen = t ∧ e'.stream = e.stream

theorem Turns.take {bytes : Bytes} {s t : Screen} (h : Turns bytes s t) {e : Emulator} (he : e.stream = .start)
    (hs : e.screen = s) : Succeeds (take bytes) e fun _ e' => e'.stream = .start ∧ e'.screen = t := by
  obtain ⟨actions, htake, hact⟩ := h
  obtain ⟨e', happ, ht, hstream⟩ := hact { e with stream := .start } hs
  obtain ⟨notices, hn⟩ := happ.applyAllFrom []
  refine ⟨notices, e', ?_, hstream, ht⟩
  unfold Emulator.take takeBy
  rw [get_bind, he, htake]
  exact hn

theorem Turns.nil (s : Screen) : Turns [] s s := ⟨[], rfl, fun e he => ⟨e, .nil, he, rfl⟩⟩

theorem Turns.append {a b : Bytes} {s t u : Screen} (h : Turns a s t) (h' : Turns b t u) : Turns (a ++ b) s u := by
  obtain ⟨first, htake, hact⟩ := h
  obtain ⟨rest, htake', hact'⟩ := h'
  have hboth : Stream.start.take (a ++ b) = (first ++ rest, .start) := by
    rw [Stream.take_append, htake, htake']
  refine ⟨first ++ rest, hboth, ?_⟩
  intro e he
  obtain ⟨e', happ, ht, hs⟩ := hact e he
  obtain ⟨e'', happ', hu, hs'⟩ := hact' e' ht
  exact ⟨e'', happ.append happ', hu, hs'.trans hs⟩

/-! ### Pieces -/

theorem turns_print {c : Int} (hc : Utf8.IsPrintable c) {s t : Screen} (h : Screen.print c s = .ok () t) :
    Turns (Utf8.encode c) s t := by
  refine ⟨[.print c], ?_, ?_⟩
  · have hrun : Utf8.Decoder.start.run (Utf8.encode c) = ([c], .start) := by
      have h1 := @Utf8.run_encodeAll [c] (by simpa using hc.1)
      rwa [Utf8.encodeAll, List.flatMap_singleton] at h1
    have hstep : Escape.step .ground c = ([.print c], .ground) := by
      have h20 := hc.2
      have hx : Escape.isExecuted c = false := by
        simp only [Escape.isExecuted, Bool.or_eq_false_iff, beq_eq_false_iff_ne]
        omega
      rw [Escape.step, if_neg (by omega), hx, if_neg (by decide), if_neg (by omega)]
    simp only [Stream.take, Stream.start]
    rw [hrun]
    dsimp only
    rw [Escape.run_cons, hstep]
    rfl
  · rintro e rfl
    have hprint : apply (.print c) e = .ok [] { e with screen := t } := (bind_of_ok (onScreen_of_ok h)).trans rfl
    exact ⟨_, .cons hprint .nil, rfl, rfl⟩

theorem dispatch_eq {kind : Control.Kind} {final : Int} {f : Control.Function}
    (hf : Control.Function.ofFinal? kind final = some f) {e : Emulator} {t : Screen}
    (h : f.perform e.sequence e.screen = .ok () t) :
    ∃ notices, dispatch kind final e = .ok notices { e with screen := t } := by
  unfold dispatch dispatchBy
  rw [get_bind, get_bind, hf]
  exact ⟨_, (bind_of_ok (onScreen_of_ok h)).trans rfl⟩

/-- A control whose function does the same whatever was collected. -/
theorem turns_control {b : UInt8} {f : Control.Function} (hf : Control.Function.ofFinal? .control b.toNat = some f)
    (htake : Stream.start.take [b] = ([.execute b.toNat], .start)) {s t : Screen}
    (h : ∀ q, f.perform q s = .ok () t) : Turns [b] s t := by
  refine ⟨_, htake, ?_⟩
  rintro e rfl
  obtain ⟨notices, hn⟩ := dispatch_eq hf (h e.sequence)
  exact ⟨_, .cons hn .nil, rfl, rfl⟩

theorem turns_newline {s t : Screen} (h : Screen.lineFeed s = .ok () t) : Turns [0x0A] s t :=
  turns_control (f := .lineFeed) (by decide) (by decide) fun _ =>
    Control.Function.perform_eq rfl (Control.Function.runAll_singleton h)

/-- A byte between `ESC [` and the final one is collected. -/
theorem apply_bodyAction (b : UInt8) (e : Emulator) :
    apply (Escape.bodyAction b) e = .ok [] { e with sequence := e.sequence.takeByte b } := by
  unfold Escape.bodyAction Escape.bodyCodeAction Control.Sequence.takeByte
  simp only [Escape.isParameter_iff]
  split <;> rfl

private theorem applies_body (body : Bytes) (e : Emulator) :
    Applies (body.map Escape.bodyAction) e
      { e with sequence := body.foldl Control.Sequence.takeByte e.sequence } := by
  induction body generalizing e with
  | nil => exact .nil
  | cons b rest ih => exact .cons (apply_bodyAction b e) (ih _)

/-- A control sequence: what is between `ESC [` and the final byte is collected, and the function of the final byte
is carried out with it. -/
theorem turns_csi {body : Bytes} (hbody : ∀ b ∈ body, Escape.IsBody b) {final : UInt8}
    (hfinal : Escape.IsFinal final) {f : Control.Function}
    (hf : Control.Function.ofFinal? .csi final.toNat = some f) {s t : Screen}
    (h : f.perform (.ofBody body) s = .ok () t) : Turns ([0x1B, 0x5B] ++ body ++ [final]) s t := by
  refine ⟨_, Escape.take_csi hbody hfinal, ?_⟩
  rintro e rfl
  have hcollect := applies_body body { e with sequence := .empty }
  obtain ⟨notices, hn⟩ := dispatch_eq (e := { e with sequence := .ofBody body }) hf h
  exact ⟨_, .cons rfl (hcollect.append (.cons hn .nil)), rfl, rfl⟩

end Emulator

end ScreenWatch
