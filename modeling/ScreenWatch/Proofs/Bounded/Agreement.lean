import ScreenWatch.Bounded.Terminal
import ScreenWatch.Proofs.Bounded.Values

/-!
# Actions with bounded numbers

An action with bounded numbers `Agrees` with one on unbounded numbers if both end well with the same, so that no value
out of the range was met.  A command agrees where it evaluates only ints (`run_agrees`).
-/

namespace ScreenWatch.Bounded

variable {σ α β : Type}

/-! ### Evaluation -/

theorem overflow?_eq_none {values : List Int} (h : AreInts values) : overflow? values = none :=
  List.find?_eq_none.2 fun n hn => by simpa using h n hn

theorem overflow?_cons_of_isInt {n : Int} (hn : IsInt n) (more : List Int) :
    overflow? (n :: more) = overflow? more := List.find?_cons_of_neg (by simpa using hn)

theorem overflow?_cons_of_not_isInt {n : Int} (hn : ¬ IsInt n) (more : List Int) : overflow? (n :: more) = some n :=
  List.find?_cons_of_pos (by simpa using hn)

theorem evaluate_of_areInts {values : List Int} (h : AreInts values) (s : σ) :
    (evaluate values : BoundedM σ Unit) s = .ok () s := by
  unfold evaluate
  rw [overflow?_eq_none h]
  rfl

theorem evaluate_of_overflow {values : List Int} {n : Int} (h : overflow? values = some n) (s : σ) :
    (evaluate values : BoundedM σ Unit) s = .error (.overflow n) s := by
  unfold evaluate
  rw [h]
  rfl

theorem lift_of_ok {act : EStateM Fault σ α} {a : α} {s t : σ} (h : act s = .ok a t) : lift act s = .ok a t := by
  unfold lift
  rw [h]

theorem discard_of_error {ε : Type} {act : EStateM ε σ α} {e : ε} {s t : σ} (h : act s = .error e t) :
    (discard act : EStateM ε σ Unit) s = .error e t := bind_of_error h

/-! ### Agreement -/

/-- From `s` on, the action does the same as one on unbounded numbers: both end well, and `Q` holds of what they give
and leave. -/
def Agrees (x : BoundedM σ α) (act : EStateM Fault σ α) (s : σ) (Q : α → σ → Prop) : Prop :=
  ∃ a t, x s = .ok a t ∧ act s = .ok a t ∧ Q a t

namespace Agrees

variable {x : BoundedM σ α} {act : EStateM Fault σ α} {f : α → BoundedM σ β} {g : α → EStateM Fault σ β} {s : σ}
  {Q Q' : α → σ → Prop} {R : β → σ → Prop}

theorem mono (h : Agrees x act s Q) (hQ : ∀ a t, Q a t → Q' a t) : Agrees x act s Q' := by
  obtain ⟨a, t, hx, ha, hq⟩ := h
  exact ⟨a, t, hx, ha, hQ a t hq⟩

theorem pure {a : α} (h : Q a s) : Agrees (Pure.pure a) (Pure.pure a) s Q := ⟨a, s, rfl, rfl, h⟩

/-- What is evaluated before an action makes no difference, if all of it is in the range. -/
theorem of_areInts {values : List Int} (hvalues : AreInts values) (h : Agrees x act s Q) :
    Agrees (do evaluate values; x) act s Q := by
  obtain ⟨a, t, hx, ha, hq⟩ := h
  exact ⟨a, t, (bind_of_ok (evaluate_of_areInts hvalues s)).trans hx, ha, hq⟩

theorem get_areInts {values : σ → List Int} (hvalues : AreInts (values s)) (h : Agrees x act s Q) :
    Agrees (do evaluate (values (← get)); x) act s Q :=
  of_areInts hvalues h

theorem lift (h : Succeeds act s Q) : Agrees (Bounded.lift act) act s Q := by
  obtain ⟨a, t, ha, hq⟩ := h
  exact ⟨a, t, lift_of_ok ha, ha, hq⟩

theorem get_bind {f : σ → BoundedM σ α} {g : σ → EStateM Fault σ α} (h : Agrees (f s) (g s) s Q) :
    Agrees (get >>= f) (get >>= g) s Q := h

theorem bind (hx : Agrees x act s Q) (hf : ∀ a t, Q a t → Agrees (f a) (g a) t R) :
    Agrees (x >>= f) (act >>= g) s R := by
  obtain ⟨a, t, hx, ha, hq⟩ := hx
  obtain ⟨b, u, hf, hb, hr⟩ := hf a t hq
  exact ⟨b, u, (bind_of_ok hx).trans hf, (bind_of_ok ha).trans hb, hr⟩

theorem discarded (h : Agrees x act s Q) : Agrees (discard x) (discard act) s fun _ t => ∃ a, Q a t := by
  obtain ⟨a, t, hx, ha, hq⟩ := h
  exact ⟨(), t, bind_of_ok hx, bind_of_ok ha, a, hq⟩

/-- A loop over a list: what holds at its start and is kept by each round holds at its end. -/
theorem forM {l : List α} {f : α → BoundedM σ Unit} {g : α → EStateM Fault σ Unit} (I : σ → Prop) (hs : I s)
    (h : ∀ a ∈ l, ∀ t, I t → Agrees (f a) (g a) t fun _ => I) : Agrees (l.forM f) (l.forM g) s fun _ => I := by
  induction l generalizing s with
  | nil => exact pure hs
  | cons a l ih => exact (h a (by simp) s hs).bind fun _ t ht => ih ht fun b hb => h b (by simp [hb])

end Agrees

/-! ### Screens -/

open Screen (Command)

variable {ok : Int → Prop} {s : Screen}

theorem run_agrees (hsp : ok 0x20) (hs : s.Fits) (hsmall : IsSmall s.width s.height) {c : Command}
    (hc : c.IsSafe ok s.height) (hmodest : IsModest c) : Agrees (run c) c.run s fun _ => Screen.Continues ok s := by
  have hvalues := Values.areInts_ofCommand hsp hs hsmall hc hmodest
  exact .of_areInts hmodest.areInts (.get_areInts hvalues (.lift (Screen.Command.run_continues hsp hs hc)))

theorem resize_agrees {width height : Nat} (hold : IsSmall s.width s.height) (hsmall : IsSmall width height)
    (hw : 0 < width) (hh : 0 < height) :
    Agrees (run (.resize width height)) (Screen.resize width height) s fun _ t => t = s.resized width height := by
  have hsize : Screen.sizeFault? width height = none :=
    Screen.sizeFault?_eq_none.2 ⟨by omega, by omega, hsmall.cells_le⟩
  have hresize : Succeeds (Screen.resize width height) s fun _ t => t = s.resized width height :=
    ⟨(), _, Screen.resize_of_none hsize s, rfl⟩
  have hnumbers : AreInts (numbers (.resize width height)) :=
    .cons (hsmall.isInt_of_le (by omega) (by omega)) (.singleton (hsmall.isInt_of_le (by omega) (by omega)))
  exact .of_areInts hnumbers (.get_areInts (Values.areInts_resize hold hsmall) (.lift hresize))

theorem readText_agrees (hsmall : IsSmall s.width s.height) (hroom : Screen.HasTextRoom s.width s.height) :
    Agrees readText Screen.readText s fun text t => text = s.text ∧ t = s :=
  .get_areInts (Values.areInts_text hsmall hroom)
    (.lift ⟨s.text, s, Screen.readText_of_hasTextRoom hroom, rfl, rfl⟩)

theorem resize_overflows {width height : Nat} (hw : 1 ≤ width ∧ width ≤ 65535) (hh : 1 ≤ height ∧ height ≤ 65535)
    (h : 2147483647 < width * height) :
    run (.resize width height) s = .error (.overflow (width * height)) s := by
  have hnumbers : AreInts (numbers (.resize width height)) :=
    .cons (isInt_natCast (by omega)) (.singleton (isInt_natCast (by omega)))
  have hcells : ¬ IsInt (width * height) := by exact_mod_cast not_isInt_natCast h
  have hvalues : overflow? (Values.ofCommand s (.resize width height)) = some ((width : Int) * height) := by
    unfold Values.ofCommand Values.resize Values.refit
    dsimp only
    rw [if_neg (by omega)]
    exact overflow?_cons_of_not_isInt hcells _
  unfold run
  rw [bind_of_ok (evaluate_of_areInts hnumbers s), get_bind]
  exact bind_of_error (evaluate_of_overflow hvalues s)

theorem readText_overflows (hsmall : IsSmall s.width s.height) (hroom : ¬ Screen.HasTextRoom s.width s.height) :
    readText s = .error (.overflow ((s.width + 1) * s.height)) s := by
  have hrow : IsInt ((s.width : Int) + 1) := hsmall.isInt_of_le (by omega) (by omega)
  have hall : ¬ IsInt (((s.width : Int) + 1) * s.height) := by
    exact_mod_cast not_isInt_natCast (Nat.not_le.1 hroom)
  have hvalues : overflow? (Values.text s) = some (((s.width : Int) + 1) * s.height) := by
    unfold Values.text
    rw [List.cons_append, overflow?_cons_of_isInt hrow, List.cons_append]
    exact overflow?_cons_of_not_isInt hall _
  unfold readText
  rw [get_bind]
  exact bind_of_error (evaluate_of_overflow hvalues s)

end ScreenWatch.Bounded
