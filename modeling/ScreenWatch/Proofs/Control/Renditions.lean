import ScreenWatch.Emulator
import ScreenWatch.Proofs.Screen.Commands

/-!
# Selecting renditions

The parameters of "select graphic rendition" change the pen one after another (`selectRendition_applies`), and it is not
seen that some of them belong together.  Of the selection of a colour that is none of the eight named ones, the first
two parameters are no codes and have no effect, but each of its values counts as a code.  So it is ignored as a whole
exactly if none of its values is a code (`extended_colors_ignored_iff`).
-/

namespace ScreenWatch

namespace Pen

/-- The numbers that have an effect on pens. -/
def IsCode (n : Int) : Prop :=
  n = 0 ∨ n = 1 ∨ n = 4 ∨ n = 7 ∨ n = 22 ∨ n = 24 ∨ n = 27 ∨ 30 ≤ n ∧ n ≤ 37 ∨ 40 ≤ n ∧ n ≤ 47

instance : DecidablePred IsCode := fun _ => inferInstanceAs (Decidable (_ ∨ _))

/-- The pen after some numbers, one after another. -/
def applyAll (p : Pen) (codes : List Nat) : Pen := codes.foldl (fun q (n : Nat) => q.apply n) p

theorem applyAll_append (p : Pen) (codes rest : List Nat) :
    p.applyAll (codes ++ rest) = (p.applyAll codes).applyAll rest := List.foldl_append

theorem apply_of_not_isCode {n : Int} (h : ¬IsCode n) (p : Pen) : p.apply n = p := by
  simp only [IsCode, not_or] at h
  unfold apply
  simp only [h, if_false]

theorem applyAll_of_not_isCode {codes : List Nat} (h : ∀ n ∈ codes, ¬IsCode n) (p : Pen) : p.applyAll codes = p := by
  induction codes generalizing p with
  | nil => rfl
  | cons n rest ih =>
    have hn : p.apply n = p := apply_of_not_isCode (h n (by simp)) p
    show (p.apply n).applyAll rest = p
    rw [hn]
    exact ih (fun m hm => h m (by simp [hm])) p

/-- A code makes some part of the pen what it says, so there is a pen that is not there after it. -/
private theorem exists_apply_ne {n : Int} (h : IsCode n) : ∃ p, ∀ q : Pen, q.apply n ≠ p := by
  -- A pen that has another foreground, or another background, than the one that the code selects.
  have other (c : Color) : ∃ d, d ≠ c := by
    by_cases h : c = .white
    · exact ⟨.black, by simp [h]⟩
    · exact ⟨.white, Ne.symm h⟩
  rcases h with rfl | rfl | rfl | rfl | rfl | rfl | rfl | ⟨hlow, hhigh⟩ | ⟨hlow, hhigh⟩
  · exact ⟨{ bold := true }, fun q => by simp [apply, plain]⟩
  · exact ⟨{ bold := false }, fun q h => by simpa [apply, setAttribute] using congrArg bold h⟩
  · exact ⟨{ underlined := false }, fun q h => by simpa [apply, setAttribute] using congrArg underlined h⟩
  · exact ⟨{ inverse := false }, fun q h => by simpa [apply, setAttribute] using congrArg inverse h⟩
  · exact ⟨{ bold := true }, fun q h => by simpa [apply, setAttribute] using congrArg bold h⟩
  · exact ⟨{ underlined := true }, fun q h => by simpa [apply, setAttribute] using congrArg underlined h⟩
  · exact ⟨{ inverse := true }, fun q h => by simpa [apply, setAttribute] using congrArg inverse h⟩
  · obtain ⟨d, hd⟩ := other (.ofInt (n - 30))
    refine ⟨{ foreground := d }, fun q h => hd ?_⟩
    rw [apply, if_neg (by omega), if_pos ⟨hlow, hhigh⟩] at h
    exact (congrArg foreground h).symm
  · obtain ⟨d, hd⟩ := other (.ofInt (n - 40))
    refine ⟨{ background := d }, fun q h => hd ?_⟩
    rw [apply, if_neg (by omega), if_neg (by omega), if_pos ⟨hlow, hhigh⟩] at h
    exact (congrArg background h).symm

/-- The last code among some numbers decides. -/
private theorem exists_applyAll_ne {codes : List Nat} (h : ∃ n ∈ codes, IsCode (n : Nat)) :
    ∃ p, ∀ q : Pen, q.applyAll codes ≠ p := by
  induction codes with
  | nil => simp at h
  | cons n rest ih =>
    have hcons (q : Pen) : q.applyAll (n :: rest) = (q.apply n).applyAll rest := rfl
    by_cases hrest : ∃ m ∈ rest, IsCode (m : Nat)
    · obtain ⟨p, hp⟩ := ih hrest
      exact ⟨p, fun q => by rw [hcons]; exact hp _⟩
    · have hnone : ∀ m ∈ rest, ¬IsCode (m : Nat) := fun m hm hcode => hrest ⟨m, hm, hcode⟩
      have hn : IsCode n := by
        obtain ⟨m, hm, hcode⟩ := h
        rcases List.mem_cons.1 hm with rfl | hm
        · exact hcode
        · exact absurd hcode (hnone m hm)
      obtain ⟨p, hp⟩ := exists_apply_ne hn
      exact ⟨p, fun q => by rw [hcons, applyAll_of_not_isCode hnone]; exact hp q⟩

/-- Only numbers of which none is a code leave every pen as it is. -/
theorem applyAll_eq_self_iff (codes : List Nat) : (∀ p : Pen, p.applyAll codes = p) ↔ ∀ n ∈ codes, ¬IsCode n := by
  constructor
  · intro h n hn hcode
    obtain ⟨p, hp⟩ := exists_applyAll_ne ⟨n, hn, hcode⟩
    exact hp p (h p)
  · exact fun h p => applyAll_of_not_isCode h p

end Pen

/-! ### Extended colours -/

/-- What a colour is selected for. -/
inductive Layer
  | foreground
  | background
  deriving DecidableEq

def Layer.selector : Layer → Nat
  | foreground => 38
  | background => 48

/-- A colour beyond the eight named ones: an entry of a palette, or a mixture. -/
inductive ExtendedColor
  | entry (n : Nat)
  | mixture (red green blue : Nat)
  deriving DecidableEq

namespace ExtendedColor

def kind : ExtendedColor → Nat
  | entry _ => 5
  | mixture .. => 2

def values : ExtendedColor → List Nat
  | entry n => [n]
  | mixture red green blue => [red, green, blue]

/-- The parameters that select the colour. -/
def params (c : ExtendedColor) (l : Layer) : List Nat := l.selector :: c.kind :: c.values

/-- Of the parameters only the values may have an effect. -/
theorem applyAll_params (c : ExtendedColor) (l : Layer) (p : Pen) : p.applyAll (c.params l) = p.applyAll c.values := by
  have hselector : ¬Pen.IsCode (l.selector : Nat) := by cases l <;> decide
  have hkind : ¬Pen.IsCode (c.kind : Nat) := by
    cases c with
    | entry n => exact (by decide : ¬Pen.IsCode 5)
    | mixture red green blue => exact (by decide : ¬Pen.IsCode 2)
  show ((p.apply (l.selector : Nat)).apply (c.kind : Nat)).applyAll c.values = _
  rw [Pen.apply_of_not_isCode hselector, Pen.apply_of_not_isCode hkind]

end ExtendedColor

namespace Control

/-- The parameters change the pen, one after another; nothing else changes. -/
theorem selectRendition_applies {q : Sequence} (h : q.params ≠ []) (s : Screen) :
    Function.selectRendition.perform q s = .ok () { s with pen := s.pen.applyAll q.params } := by
  have hcommands : Function.selectRendition.commands q s = q.params.map fun (n : Nat) => .applyRendition n :=
    if_neg (by simpa using h)
  exact Function.perform_eq hcommands (Function.runAll_renditions q.params s)

/-- What becomes of a colour beyond the eight named ones, wherever among other parameters it is selected.  Each of its
values counts as a code of its own; so the selection is ignored as a whole exactly if none of them is a code. -/
theorem extended_colors_ignored_iff (c : ExtendedColor) (l : Layer) :
    (∀ (q : Sequence) (a b : List Nat), q.params = a ++ c.params l ++ b → ∀ s : Screen,
      Function.selectRendition.perform q s = .ok () { s with pen := s.pen.applyAll (a ++ c.values ++ b) }) ∧
    ((∀ (q : Sequence) (a b : List Nat), q.params = a ++ c.params l ++ b → ∀ s : Screen,
        Function.selectRendition.perform q s = .ok () { s with pen := s.pen.applyAll (a ++ b) }) ↔
      ∀ n ∈ c.values, ¬Pen.IsCode n) := by
  have applies (q : Sequence) (a b : List Nat) (hq : q.params = a ++ c.params l ++ b) (s : Screen) :
      Function.selectRendition.perform q s = .ok () { s with pen := s.pen.applyAll (a ++ c.values ++ b) } := by
    rw [selectRendition_applies (by simp [hq, ExtendedColor.params]) s, hq]
    simp only [Pen.applyAll_append, ExtendedColor.applyAll_params]
  refine ⟨applies, ?_, ?_⟩
  · intro hignored
    refine (Pen.applyAll_eq_self_iff c.values).1 fun p => ?_
    have hparams : (Sequence.mk (c.params l) [] []).params = [] ++ c.params l ++ [] := (List.append_nil _).symm
    let s : Screen := { Screen.empty 1 1 with pen := p }
    have hboth := (applies _ _ _ hparams s).symm.trans (hignored _ _ _ hparams s)
    have hpen := congrArg Screen.pen (EStateM.Result.ok.inj hboth).2
    rwa [List.append_nil, List.nil_append] at hpen
  · intro hvalues q a b hq s
    rw [applies q a b hq s]
    simp only [Pen.applyAll_append, Pen.applyAll_of_not_isCode hvalues]

/-- Between "bold" and "underlined" the entry 196 of the palette is ignored. -/
theorem extended_colors_ignored_196 :
    let q : Sequence := { params := [1, 38, 5, 196, 4] }
    (∀ n ∈ (ExtendedColor.entry 196).values, ¬Pen.IsCode n) ∧
      q.params = [1] ++ (ExtendedColor.entry 196).params .foreground ++ [4] ∧
      Function.selectRendition.perform q (.empty 1 1) =
        .ok () { Screen.empty 1 1 with pen := { bold := true, underlined := true } } := by
  intro q
  have hvalues : ∀ n ∈ (ExtendedColor.entry 196).values, ¬Pen.IsCode n := by decide
  have hparams : q.params = [1] ++ (ExtendedColor.entry 196).params .foreground ++ [4] := rfl
  exact ⟨hvalues, hparams, (extended_colors_ignored_iff (.entry 196) .foreground).2.2 hvalues q [1] [4] hparams _⟩

/-- The entry 1 of the palette makes the pen bold: it is not ignored, although nothing stands before and after it. -/
theorem extended_color_makes_bold :
    let q : Sequence := { params := [38, 5, 1] }
    q.params = [] ++ (ExtendedColor.entry 1).params .foreground ++ [] ∧
      Function.selectRendition.perform q (.empty 1 1) = .ok () { Screen.empty 1 1 with pen := { bold := true } } ∧
      Function.selectRendition.perform q (.empty 1 1) ≠
        .ok () { Screen.empty 1 1 with pen := (Screen.empty 1 1).pen.applyAll ([] ++ []) } ∧
      Succeeds (Emulator.take [0x1B, 0x5B, 0x33, 0x38, 0x3B, 0x35, 0x3B, 0x31, 0x6D]) { screen := .empty 1 1 } fun _ e =>
        e.screen.pen = { bold := true } := by
  intro q
  have hbold : Function.selectRendition.perform q (.empty 1 1) =
      .ok () { Screen.empty 1 1 with pen := { bold := true } } := rfl
  refine ⟨rfl, hbold, ?_, by decide +kernel⟩
  intro hplain
  have hpen := congrArg Screen.pen (EStateM.Result.ok.inj (hbold.symm.trans hplain)).2
  exact absurd hpen (by decide)

end Control

end ScreenWatch
