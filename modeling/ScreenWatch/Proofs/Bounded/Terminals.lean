import ScreenWatch.Proofs.Bounded.Commands
import ScreenWatch.Proofs.Terminal.Runs

/-!
# Terminals with bounded numbers

In a small size every chunk of output is taken as without bounds (`take_agrees`), and so is every call of a terminal, if
there is also room for the text (`receive_agrees`).
-/

namespace ScreenWatch.Bounded

open Control (Function)
open Escape (Action)

variable {α : Type}

/-! ### Emulators -/

/-- The screen fits together in a small size, and the parameters that are collected are in their range. -/
structure IsReady (e : Emulator) : Prop where
  fits : e.screen.Fits
  isSmall : IsSmall e.screen.width e.screen.height
  saturated : e.sequence.Saturated

/-- `e'` is ready like `e` before it, in the same size. -/
structure GoesOn (e e' : Emulator) : Prop where
  isReady : IsReady e'
  width_eq : e'.screen.width = e.screen.width
  height_eq : e'.screen.height = e.screen.height

variable {e e' e'' : Emulator}

theorem GoesOn.refl (he : IsReady e) : GoesOn e e := ⟨he, rfl, rfl⟩

theorem GoesOn.trans (h : GoesOn e e') (h' : GoesOn e' e'') : GoesOn e e'' :=
  ⟨h'.isReady, h'.width_eq.trans h.width_eq, h'.height_eq.trans h.height_eq⟩

theorem IsReady.withSequence (he : IsReady e) {q : Control.Sequence} (hq : q.Saturated) :
    GoesOn e { e with sequence := q } := ⟨⟨he.fits, he.isSmall, hq⟩, rfl, rfl⟩

/-- Nothing is asked of the code points here. -/
private def anyCode (_ : Int) : Prop := True

theorem onScreen_agrees {x : BoundedM Screen α} {edit : ScreenM α} {Q : α → Screen → Prop}
    (h : Agrees x edit e.screen Q) :
    Agrees (Emulator.onScreen x) (Emulator.onScreen edit) e fun a e' => Q a e'.screen ∧ e'.sequence = e.sequence := by
  obtain ⟨a, screen, hx, hedit, hq⟩ := h
  exact ⟨a, { e with screen }, Emulator.onScreen_of_ok hx, Emulator.onScreen_of_ok hedit, hq, rfl⟩

theorem edit_agrees (he : IsReady e) {x : BoundedM Screen Unit} {edit : ScreenM Unit}
    (h : Agrees x edit e.screen fun _ => Screen.Continues anyCode e.screen) :
    Agrees (Emulator.onScreen x) (Emulator.onScreen edit) e fun _ => GoesOn e := by
  refine (onScreen_agrees h).mono ?_
  rintro _ e' ⟨ht, hsequence⟩
  exact ⟨⟨ht.fits, he.isSmall.continues ht, hsequence ▸ he.saturated⟩, ht.width_eq, ht.height_eq⟩

theorem dispatch_agrees (he : IsReady e) (kind : Control.Kind) (final : Int) :
    Agrees (Emulator.dispatchBy editor kind final) (Emulator.dispatch kind final) e fun _ => GoesOn e := by
  unfold Emulator.dispatch Emulator.dispatchBy
  refine .get_bind (.get_bind ?_)
  cases Function.ofFinal? kind final with
  | none => exact .pure (.refl he)
  | some f =>
    have hperform : Agrees (f.performBy editor e.sequence) (f.perform e.sequence) e.screen
        fun _ => Screen.Continues anyCode e.screen := perform_agrees he.fits he.isSmall trivial f he.saturated
    exact (edit_agrees he hperform).bind fun _ _ h => .pure h

theorem apply_agrees (he : IsReady e) (a : Action) :
    Agrees (Emulator.applyBy editor a) (Emulator.apply a) e fun _ => GoesOn e := by
  cases a with
  | print c =>
    have hprint : Agrees (run (.print c)) (Screen.print c) e.screen fun _ => Screen.Continues anyCode e.screen :=
      run_agrees trivial he.fits he.isSmall trivial nofun
    exact (edit_agrees he hprint).bind fun _ _ h => .pure h
  | execute c => exact dispatch_agrees he _ _
  | clear => exact ⟨_, _, rfl, rfl, he.withSequence .empty⟩
  | collect c => exact ⟨_, _, rfl, rfl, he.withSequence (he.saturated.collect c)⟩
  | param c => exact ⟨_, _, rfl, rfl, he.withSequence (he.saturated.pushParam c)⟩
  | escDispatch c => exact dispatch_agrees he _ _
  | csiDispatch c =>
    have h := he.withSequence he.saturated.flush
    exact (dispatch_agrees h.isReady .csi c).mono fun _ _ h' => h.trans h'

theorem applyAllFrom_agrees (he : IsReady e) (actions : List Action) (found : List Notice) :
    Agrees (Emulator.applyAllFromBy editor found actions) (Emulator.applyAllFrom found actions) e
      fun _ => GoesOn e := by
  induction actions generalizing e found with
  | nil => exact .pure (.refl he)
  | cons a rest ih =>
    exact (apply_agrees he a).bind fun _ _ h => (ih h.isReady _).mono fun _ _ h' => h.trans h'

theorem take_agrees (he : IsReady e) (chunk : Bytes) :
    Agrees (Emulator.takeBy editor chunk) (Emulator.take chunk) e fun _ => GoesOn e := by
  have he' : IsReady { e with stream := (e.stream.take chunk).2 } := ⟨he.fits, he.isSmall, he.saturated⟩
  exact (applyAllFrom_agrees he' (e.stream.take chunk).1 []).mono fun _ _ h => ⟨h.isReady, h.width_eq, h.height_eq⟩

/-! ### Terminals -/

variable {t : Terminal}

theorem onEmulator_agrees {x : BoundedM Emulator α} {act : EmulatorM α} {Q : α → Emulator → Prop}
    (h : Agrees x act t.emulator Q) :
    Agrees (Terminal.onEmulator x) (Terminal.onEmulator act) t fun a t' => Q a t'.emulator := by
  obtain ⟨a, emulator, hx, hact, hq⟩ := h
  exact ⟨a, { t with emulator }, Terminal.onEmulator_of_ok hx, Terminal.onEmulator_of_ok hact, hq⟩

theorem readText_agrees_of_room (ht : IsReady t.emulator) (hroom : t.emulator.HasTextRoom) :
    Agrees (Terminal.readTextBy editor) Terminal.readText t fun _ t' => t' = t := by
  obtain ⟨_, _, htext, -, rfl, rfl⟩ := readText_agrees ht.isSmall hroom
  exact ⟨t.text, t, Terminal.onEmulator_of_ok (Emulator.onScreen_of_ok htext), Terminal.readText_of_room hroom, rfl⟩

theorem receive_agrees (ht : IsReady t.emulator) (hroom : t.emulator.HasTextRoom)
    (raises : ListenerName → Change → Option Bytes) (time : Nat) (chunk : Bytes) :
    Agrees (Terminal.receiveBy editor raises time chunk) (Terminal.receive time chunk raises) t
      fun _ t' => GoesOn t.emulator t'.emulator := by
  refine (readText_agrees_of_room ht hroom).bind ?_
  rintro before _ rfl
  refine (onEmulator_agrees (take_agrees ht chunk)).bind fun traces t' he => ?_
  have hroom' : t'.emulator.HasTextRoom := by
    unfold Emulator.HasTextRoom at *
    rw [he.width_eq, he.height_eq]
    exact hroom
  refine (readText_agrees_of_room he.isReady hroom').bind ?_
  rintro after _ rfl
  by_cases hchanged : before ≠ after
  · rw [if_pos hchanged, if_pos hchanged]
    exact ⟨_, _, rfl, rfl, he⟩
  · rw [if_neg hchanged, if_neg hchanged]
    exact ⟨_, _, rfl, rfl, he⟩

theorem receive_overflows (ht : IsReady t.emulator) (hroom : ¬ t.emulator.HasTextRoom)
    (raises : ListenerName → Change → Option Bytes) (time : Nat) (chunk : Bytes) :
    Terminal.receiveBy editor raises time chunk t =
      .error (.overflow ((t.emulator.screen.width + 1) * t.emulator.screen.height)) t :=
  bind_of_error (Terminal.onEmulator_of_error (Emulator.onScreen_of_error (readText_overflows ht.isSmall hroom)))

end ScreenWatch.Bounded
