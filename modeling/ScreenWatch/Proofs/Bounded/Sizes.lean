import ScreenWatch.Proofs.Bounded.Terminals
import ScreenWatch.Proofs.Text.Positive
import ScreenWatch.Session.Pump

/-!
# Sizes with room for their numbers

Sizes from 1 to 65535 are accepted for both directions, and not all of them leave the numbers of a terminal in their
range: the cells have to be counted, and for every chunk of output also the text, which is longer by a newline for each
row.  That is all that can go wrong (`arithmetic_of_accepted_sizes`).  A session with more cells than can be counted
does not begin (`openTerminal_eq`).
-/

namespace ScreenWatch

/-! ### Accepted sizes -/

/-- A width and a height that are accepted. -/
def IsAccepted (size : Nat × Nat) : Prop := (1 ≤ size.1 ∧ size.1 ≤ 65535) ∧ 1 ≤ size.2 ∧ size.2 ≤ 65535

instance (size : Nat × Nat) : Decidable (IsAccepted size) := inferInstanceAs (Decidable (_ ∧ _))

namespace Session.Options

open Host (Environment)

variable {env : Environment} {o o' : Options} {n : Nat}

private theorem assigned_le {value : Bytes} {present : Nat} (h : Text.assignPositive (some value) present = (true, n)) :
    1 ≤ n ∧ n ≤ 65535 := by
  unfold Text.assignPositive at h
  split at h
  · next m hm =>
    obtain rfl := (Prod.mk.inj h).2
    exact (Text.isNumeral_of_positive? hm).2
  · cases h

private theorem number_le {what : String} {value : Bytes} {present : Nat} (h : number what value present = .ok n) :
    1 ≤ n ∧ n ≤ 65535 := by
  unfold number at h
  split at h
  · next m hm =>
    obtain rfl := Except.ok.inj h
    exact assigned_le hm
  · cases h

private theorem sizeFrom_le {name : String} {default : Nat} (hdefault : 1 ≤ default ∧ default ≤ 65535)
    (h : sizeFrom env name default = .ok n) : 1 ≤ n ∧ n ≤ 65535 := by
  unfold sizeFrom at h
  split at h
  · obtain rfl := Except.ok.inj h
    exact hdefault
  · split at h
    · next m hm =>
      obtain rfl := Except.ok.inj h
      exact assigned_le hm
    · cases h

private theorem bind_eq_ok {α β : Type} {x : Except Refusal α} {f : α → Except Refusal β} {b : β}
    (h : (x >>= f) = .ok b) : ∃ a, x = .ok a ∧ f a = .ok b := by
  cases x with
  | error refusal => cases h
  | ok a => exact ⟨a, rfl, h⟩

private theorem ofEnvironment_accepted (h : ofEnvironment env = .ok o) : IsAccepted (o.cols, o.rows) := by
  obtain ⟨cols, hcols, h⟩ := bind_eq_ok h
  obtain ⟨rows, hrows, h⟩ := bind_eq_ok h
  obtain rfl := Except.ok.inj h
  exact ⟨sizeFrom_le (by decide) hcols, sizeFrom_le (by decide) hrows⟩

private theorem apply_accepted {item : Item} (ho : IsAccepted (o.cols, o.rows)) (h : apply o item = .ok o') :
    IsAccepted (o'.cols, o'.rows) := by
  cases item with
  | invalid letter => cases h
  | missing letter => cases h
  | option letter value =>
    unfold apply at h
    dsimp only at h
    repeat' split at h
    · obtain ⟨n, hn, h⟩ := bind_eq_ok h
      obtain rfl := Except.ok.inj h
      exact ⟨number_le hn, ho.2⟩
    · obtain ⟨n, hn, h⟩ := bind_eq_ok h
      obtain rfl := Except.ok.inj h
      exact ⟨ho.1, number_le hn⟩
    · obtain ⟨n, hn, h⟩ := bind_eq_ok h
      obtain rfl := Except.ok.inj h
      exact ho
    all_goals
      obtain rfl := Except.ok.inj h
      exact ho

private theorem applyAll_accepted {items : List Item} (ho : IsAccepted (o.cols, o.rows))
    (h : items.foldlM apply o = .ok o') : IsAccepted (o'.cols, o'.rows) := by
  induction items generalizing o with
  | nil =>
    obtain rfl := Except.ok.inj h
    exact ho
  | cons item items ih =>
    rw [List.foldlM_cons] at h
    obtain ⟨o₁, happly, hrest⟩ := bind_eq_ok h
    exact ih (apply_accepted ho happly) hrest

/-- The sizes of options that are parsed are accepted. -/
theorem accepted_of_parse {arguments : List Bytes} (h : parse env arguments = .ok o) : IsAccepted (o.cols, o.rows) := by
  unfold parse at h
  split at h
  · cases h
  · dsimp only at h
    split at h
    · cases h
    · obtain ⟨o₁, henv, h⟩ := bind_eq_ok h
      obtain ⟨o₂, hitems, h⟩ := bind_eq_ok h
      obtain rfl := Except.ok.inj h
      exact show IsAccepted (o₂.cols, o₂.rows) from applyAll_accepted (ofEnvironment_accepted henv) hitems

end Session.Options

namespace Bounded

/-! ### Calls -/

namespace Call

/-- The size of the terminal after the call. -/
def sizeAfter (size : Nat × Nat) : Call → Nat × Nat
  | resize width height => (width, height)
  | _ => size

/-- In a terminal of some size there is room for what the call counts. -/
def HasRoom (size : Nat × Nat) : Call → Prop
  | receive _ _ => Screen.HasTextRoom size.1 size.2
  | reset => True
  | resize width height => Screen.HasCellRoom width height

/-- A new size is an accepted one. -/
def IsAccepted : Call → Prop
  | resize width height => ScreenWatch.IsAccepted (width, height)
  | _ => True

end Call

/-- Each of the calls has room in the size that the calls before it leave. -/
def HaveRoom (size : Nat × Nat) : List Call → Prop
  | [] => True
  | c :: rest => c.HasRoom size ∧ HaveRoom (c.sizeAfter size) rest

def sizeOf (t : Terminal) : Nat × Nat := (t.emulator.screen.width, t.emulator.screen.height)

variable {t : Terminal} {c : Call}

/-- A call that has room agrees with the call on unbounded numbers. -/
theorem Call.perform_agrees (ht : IsReady t.emulator) (hc : c.IsAccepted) (hroom : c.HasRoom (sizeOf t)) :
    Agrees c.perform c.run t fun _ t' => IsReady t'.emulator ∧ sizeOf t' = c.sizeAfter (sizeOf t) := by
  -- Only a new size changes the size.
  have goesOn {x : BoundedM Terminal Unit} {act : TerminalM Unit}
      (h : Agrees x act t fun _ t' => GoesOn t.emulator t'.emulator) :
      Agrees x act t fun _ t' => IsReady t'.emulator ∧ sizeOf t' = sizeOf t :=
    h.mono fun _ t' h => ⟨h.isReady, Prod.ext h.width_eq h.height_eq⟩
  cases c with
  | receive time chunk =>
    exact goesOn ((receive_agrees ht hroom _ time chunk).discarded.mono fun _ _ h => h.elim fun _ h => h)
  | reset =>
    have hreset : Agrees (Bounded.run .reset) Screen.Command.reset.run t.emulator.screen
        fun _ => Screen.Continues (fun _ => True) t.emulator.screen :=
      run_agrees trivial ht.fits ht.isSmall trivial nofun
    exact goesOn (onEmulator_agrees (edit_agrees ht hreset))
  | resize width height =>
    obtain ⟨⟨hw, hw'⟩, hh, hh'⟩ := hc
    have hsmall : IsSmall width height := ⟨hw', hh', hroom⟩
    refine (onEmulator_agrees (onScreen_agrees (resize_agrees ht.isSmall hsmall hw hh))).mono ?_
    rintro _ t' ⟨hscreen, hsequence⟩
    have hfits := Screen.fits_resized t.emulator.screen hw hh
    rw [← hscreen] at hfits
    have hwidth : t'.emulator.screen.width = width := by
      rw [hscreen]
      rfl
    have hheight : t'.emulator.screen.height = height := by
      rw [hscreen]
      rfl
    refine ⟨⟨hfits, ?_, hsequence ▸ ht.saturated⟩, Prod.ext hwidth hheight⟩
    rw [hwidth, hheight]
    exact hsmall

/-- A call without room stops at a number that is out of the range; this is where it is refused without bounds. -/
theorem Call.perform_overflows (ht : IsReady t.emulator) (hc : c.IsAccepted) (hroom : ¬ c.HasRoom (sizeOf t)) :
    ∃ n fault, c.perform t = .error (.overflow n) t ∧ ¬ IsInt n ∧ c.run t = .error fault t := by
  cases c with
  | receive time chunk =>
    have hlarge : 2147483647 < (t.emulator.screen.width + 1) * t.emulator.screen.height := Nat.not_le.1 hroom
    have hrefused : Terminal.receive time chunk (fun _ _ => none) t = .error .textTooLong t :=
      bind_of_error (Terminal.readText_of_no_room hroom)
    refine ⟨(t.emulator.screen.width + 1) * t.emulator.screen.height, .textTooLong, ?_, ?_, ?_⟩
    · unfold Call.perform Call.runBy
      exact discard_of_error (receive_overflows ht hroom _ time chunk)
    · exact_mod_cast not_isInt_natCast hlarge
    · unfold Call.run Call.runBy
      exact discard_of_error hrefused
  | reset => exact absurd trivial hroom
  | resize width height =>
    have hlarge : 2147483647 < width * height := Nat.not_le.1 hroom
    have hresize : Bounded.run (.resize width height) t.emulator.screen =
        .error (.overflow (width * height)) t.emulator.screen := resize_overflows hc.1 hc.2 hlarge
    have hsize : Screen.sizeFault? width height = some .tooManyCells :=
      Screen.sizeFault?_of_not_hasCellRoom (by have := hc.1.1; omega) (by have := hc.2.1; omega) hroom
    have hrefused : Screen.resize width height t.emulator.screen = .error .tooManyCells t.emulator.screen :=
      Screen.resize_of_fault hsize _
    refine ⟨width * height, .tooManyCells, Terminal.onEmulator_of_error (Emulator.onScreen_of_error hresize), ?_,
      Terminal.onEmulator_of_error (Emulator.onScreen_of_error hrefused)⟩
    exact_mod_cast not_isInt_natCast hlarge

/-! ### Runs -/

/-- All calls that have room agree, one after another. -/
theorem calls_agree {calls : List Call} (ht : IsReady t.emulator) (hcalls : ∀ c ∈ calls, c.IsAccepted)
    (hroom : HaveRoom (sizeOf t) calls) :
    Agrees (calls.forM Call.perform) (calls.forM Call.run) t fun _ t' => IsReady t'.emulator := by
  induction calls generalizing t with
  | nil => exact .pure ht
  | cons c rest ih =>
    refine (Call.perform_agrees ht (hcalls c (by simp)) hroom.1).bind ?_
    rintro _ t' ⟨ht', hsize⟩
    exact ih ht' (fun d hd => hcalls d (by simp [hd])) (hsize ▸ hroom.2)

/-- The first call without room stops the run. -/
theorem calls_overflow {calls : List Call} (ht : IsReady t.emulator) (hcalls : ∀ c ∈ calls, c.IsAccepted)
    (hroom : ¬ HaveRoom (sizeOf t) calls) :
    ∃ n t', calls.forM Call.perform t = .error (.overflow n) t' ∧ ¬ IsInt n := by
  induction calls generalizing t with
  | nil => exact absurd trivial hroom
  | cons c rest ih =>
    have hc := hcalls c (by simp)
    by_cases hfirst : c.HasRoom (sizeOf t)
    · obtain ⟨_, t', hperform, -, ht', hsize⟩ := Call.perform_agrees ht hc hfirst
      have hrest : ¬ HaveRoom (sizeOf t') rest := fun h => hroom ⟨hfirst, hsize ▸ h⟩
      obtain ⟨n, u, hn, hint⟩ := ih ht' (fun d hd => hcalls d (by simp [hd])) hrest
      exact ⟨n, u, (bind_of_ok hperform).trans hn, hint⟩
    · obtain ⟨n, _, hn, hint, -⟩ := Call.perform_overflows ht hc hfirst
      exact ⟨n, t, bind_of_error hn, hint⟩

def blankTerminal (width height : Nat) : Terminal := { emulator := { screen := .empty width height } }

section Create

variable {width height : Nat} (h : IsAccepted (width, height))

include h

private theorem not_badSize : ¬ ((width : Int) ≤ 0 ∨ (height : Int) ≤ 0) := by
  have hw := h.1.1
  have hh := h.2.1
  omega

private theorem isReady_blankTerminal (hcells : width * height ≤ 2147483647) :
    IsReady (blankTerminal width height).emulator :=
  ⟨Screen.fits_empty h.1.1 h.2.1, ⟨h.1.2, h.2.2, hcells⟩, .empty⟩

theorem create_eq (hcells : width * height ≤ 2147483647) :
    Terminal.create width height = .ok (blankTerminal width height) ∧
      create width height = .ok (blankTerminal width height) := by
  have hunbounded : Terminal.create width height = .ok (blankTerminal width height) :=
    Terminal.create_of_hasCellRoom h.1.1 h.2.1 hcells
  refine ⟨hunbounded, ?_⟩
  unfold create
  rw [if_neg (not_badSize h), overflow?_eq_none (Values.areInts_empty ⟨h.1.2, h.2.2, hcells⟩), hunbounded]
  rfl

theorem create_overflows (hcells : 2147483647 < width * height) :
    create width height = .error (.overflow (width * height)) := by
  have hlast : IsInt ((height : Int) - 1) := isInt_of_modest (by have := h.2.2; omega) (by have := h.2.2; omega)
  have hall : ¬ IsInt ((width : Int) * height) := by exact_mod_cast not_isInt_natCast hcells
  unfold create Values.empty
  rw [if_neg (not_badSize h), overflow?_cons_of_isInt hlast, overflow?_cons_of_not_isInt hall]

end Create

/-- A session begins with a terminal whose cells can be counted, or not at all. -/
theorem openTerminal_eq {o : Session.Options} (h : IsAccepted (o.cols, o.rows)) :
    Session.Pump.openTerminal o = match create o.cols o.rows with
      | .ok t => pure t
      | .error _ => throw (.raised (ascii Fault.tooManyCells.message)) := by
  unfold Session.Pump.openTerminal
  by_cases hcells : o.cols * o.rows ≤ 2147483647
  · obtain ⟨hcreate, hcreate'⟩ := create_eq h hcells
    rw [hcreate, hcreate']
  · rw [create_overflows h (Nat.not_le.1 hcells), Terminal.create_of_no_cellRoom h.1.1 h.2.1 hcells]

open Session (Options)

/-- In every size that the options can ask for, a terminal that takes output, begins anew and gets other accepted sizes
does the same with bounded numbers as without bounds, as long as the cells can be counted, and for output also the text.
Where they cannot, that number is out of the range. -/
theorem arithmetic_of_accepted_sizes {env : Host.Environment} {arguments : List Bytes} {o : Options}
    (hparse : Options.parse env arguments = .ok o) {calls : List Call} (hcalls : ∀ c ∈ calls, c.IsAccepted) :
    (o.cols * o.rows ≤ 2147483647 ∧ HaveRoom (o.cols, o.rows) calls →
      ∃ t t', Terminal.create o.cols o.rows = .ok t ∧ calls.forM Call.run t = .ok () t' ∧
        follow o.cols o.rows calls = .ok t') ∧
    (¬ (o.cols * o.rows ≤ 2147483647 ∧ HaveRoom (o.cols, o.rows) calls) →
      ∃ n, follow o.cols o.rows calls = .error (.overflow n) ∧ ¬ IsInt n) := by
  have ho := Options.accepted_of_parse hparse
  constructor
  · rintro ⟨hcells, hroom⟩
    obtain ⟨_, t', hperform, hrun, -⟩ := calls_agree (t := blankTerminal o.cols o.rows)
      (isReady_blankTerminal ho hcells) hcalls hroom
    obtain ⟨hcreate, hcreate'⟩ := create_eq ho hcells
    refine ⟨_, t', hcreate, hrun, ?_⟩
    unfold follow
    rw [hcreate']
    dsimp only
    rw [hperform]
  · intro hnone
    -- The first number out of the range is met when the terminal is made, or in one of the calls.
    by_cases hcells : o.cols * o.rows ≤ 2147483647
    · have hroom : ¬ HaveRoom (o.cols, o.rows) calls := fun h => hnone ⟨hcells, h⟩
      obtain ⟨n, t', hn, hint⟩ := calls_overflow (t := blankTerminal o.cols o.rows)
        (isReady_blankTerminal ho hcells) hcalls hroom
      refine ⟨n, ?_, hint⟩
      unfold follow
      rw [(create_eq ho hcells).2]
      dsimp only
      rw [hn]
    · have hlarge := Nat.not_le.1 hcells
      refine ⟨o.cols * o.rows, ?_, by exact_mod_cast not_isInt_natCast hlarge⟩
      unfold follow
      rw [create_overflows ho hlarge]

/-- A terminal takes output that moves the cursor as far as it goes, gets a larger size and begins anew. -/
theorem arithmetic_of_large_movement :
    let calls : List Call := [.receive 0 (ascii "a\x1b[65535C\x1b[2147483648Bb\t"), .resize 200 60, .reset,
      .receive 1 (ascii "c")]
    Options.parse [] [ascii "vtmirror", ascii "-c", ascii "132", ascii "-r50"] = .ok { cols := 132, rows := 50 } ∧
      (∀ c ∈ calls, c.IsAccepted) ∧ (132 * 50 ≤ 2147483647 ∧ HaveRoom (132, 50) calls) ∧
      ∃ t t', Terminal.create 132 50 = .ok t ∧ calls.forM Call.run t = .ok () t' ∧ follow 132 50 calls = .ok t' := by
  intro calls
  have hparse : Options.parse [] [ascii "vtmirror", ascii "-c", ascii "132", ascii "-r50"] =
      .ok { cols := 132, rows := 50 } := by rfl
  have hcalls : ∀ c ∈ calls, c.IsAccepted := by
    simp [calls, Call.IsAccepted, IsAccepted]
  have hroom : 132 * 50 ≤ 2147483647 ∧ HaveRoom (132, 50) calls := by
    simp only [calls, HaveRoom, Call.HasRoom, Call.sizeAfter]
    decide
  exact ⟨hparse, hcalls, hroom, (arithmetic_of_accepted_sizes hparse hcalls).1 hroom⟩

/-- The largest size that is accepted has too many cells. -/
theorem largest_size_overflows :
    ∃ o, Options.parse [] [ascii "vtmirror", ascii "-c", ascii "65535", ascii "-r", ascii "65535"] = .ok o ∧
      (o.cols, o.rows) = (65535, 65535) ∧ follow o.cols o.rows [] = .error (.overflow 4294836225) ∧
      ¬ IsInt 4294836225 := by
  have hparse : Options.parse [] [ascii "vtmirror", ascii "-c", ascii "65535", ascii "-r", ascii "65535"] =
      .ok { cols := 65535, rows := 65535 } := by rfl
  have hcreate : create (65535 : Nat) (65535 : Nat) = .error (.overflow 4294836225) :=
    create_overflows (by decide) (by decide)
  refine ⟨_, hparse, rfl, ?_, by decide⟩
  unfold follow
  rw [hcreate]

end Bounded

end ScreenWatch
