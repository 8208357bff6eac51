import ScreenWatch.Text.Utf8

/-!
# Well-formed sequences

The well-formed sequences of UTF-8 as the Unicode Standard lists them, by the ranges of their bytes (Table 3-7),
and their scalar values.  What may follow a lead byte is what `Decoder.opened?` keeps of it
(`isWellFormed_cons`), so the length of a sequence is known from its first byte and none begins another one
(`IsWellFormed.prefix_free`).
-/

namespace ScreenWatch.Utf8

/-- The ranges of the bytes of a well-formed sequence, for each form that there is. -/
def forms : List (List (UInt8 × UInt8)) := [
  [(0x00, 0x7F)],
  [(0xC2, 0xDF), (0x80, 0xBF)],
  [(0xE0, 0xE0), (0xA0, 0xBF), (0x80, 0xBF)],
  [(0xE1, 0xEC), (0x80, 0xBF), (0x80, 0xBF)],
  [(0xED, 0xED), (0x80, 0x9F), (0x80, 0xBF)],
  [(0xEE, 0xEF), (0x80, 0xBF), (0x80, 0xBF)],
  [(0xF0, 0xF0), (0x90, 0xBF), (0x80, 0xBF), (0x80, 0xBF)],
  [(0xF1, 0xF3), (0x80, 0xBF), (0x80, 0xBF), (0x80, 0xBF)],
  [(0xF4, 0xF4), (0x80, 0x8F), (0x80, 0xBF), (0x80, 0xBF)]]

def HasForm : List (UInt8 × UInt8) → Bytes → Prop
  | [], [] => True
  | r :: form, b :: u => (r.1 ≤ b ∧ b ≤ r.2) ∧ HasForm form u
  | _, _ => False

def IsWellFormed (u : Bytes) : Prop := ∃ form ∈ forms, HasForm form u

/-- A part at the start of a well-formed sequence; nothing and all of it count. -/
def IsInitial (u : Bytes) : Prop := ∃ v, IsWellFormed (u ++ v)

/-- The payload bits of a well-formed sequence. -/
def scalarValue : Bytes → Nat
  | [a] => a.toNat
  | [a, b] => a.toNat % 32 * 64 + b.toNat % 64
  | [a, b, c] => a.toNat % 16 * 4096 + b.toNat % 64 * 64 + c.toNat % 64
  | [a, b, c, d] => a.toNat % 8 * 262144 + b.toNat % 64 * 4096 + c.toNat % 64 * 64 + d.toNat % 64
  | _ => 0

/-! ### Parts of sequences -/

theorem IsInitial.of_append {u v : Bytes} (h : IsInitial (u ++ v)) : IsInitial u := by
  obtain ⟨w, hw⟩ := h
  exact ⟨v ++ w, by rwa [← List.append_assoc]⟩

theorem isInitial_nil : IsInitial [] := ⟨[0], [(0x00, 0x7F)], by decide, by decide, trivial⟩

theorem not_isWellFormed_nil : ¬ IsWellFormed [] := by
  simp [IsWellFormed, forms, HasForm]

theorem HasForm.length_eq {form : List (UInt8 × UInt8)} {u : Bytes} (h : HasForm form u) :
    u.length = form.length := by
  induction form generalizing u with
  | nil =>
    cases u with
    | nil => rfl
    | cons b u => exact h.elim
  | cons r form ih =>
    cases u with
    | nil => exact h.elim
    | cons b u => rw [List.length_cons, List.length_cons, ih h.2]

/-! ### What follows a lead byte -/

/-- The bytes that finish an unfinished sequence. -/
def Partial.Completes (p : Partial) (v : Bytes) : Prop :=
  HasForm ((p.low, p.high) :: List.replicate (p.missing - 1) (0x80, 0xBF)) v

/-- The value of a sequence from the bytes that finish it. -/
def Partial.finish (p : Partial) (v : Bytes) : Nat := v.foldl (fun value b => 64 * value + (b.toNat - 0x80)) p.value

private theorem hasForm_nil_iff (v : Bytes) : HasForm [] v ↔ v = [] := by
  cases v <;> simp [HasForm]

theorem isWellFormed_cons (b : UInt8) (v : Bytes) :
    IsWellFormed (b :: v) ↔ (b ≤ 0x7F ∧ v = []) ∨ ∃ p, Decoder.opened? b = some p ∧ p.Completes v := by
  simp only [IsWellFormed, forms, List.mem_cons, List.not_mem_nil, or_false, exists_eq_or_imp, exists_eq_left,
    HasForm, hasForm_nil_iff, Decoder.opened?, Partial.Completes]
  simp only [UInt8.le_iff_toNat_le, ← UInt8.toNat_inj, UInt8.reduceToNat]
  generalize b.toNat = n
  -- One case for each kind of lead byte; the forms with another first range are ruled out by arithmetic.
  repeat' split
  all_goals
    simp only [List.replicate, Option.some.injEq, exists_eq_left', reduceCtorEq, false_and, exists_false]
    grind

/-- The value that is gathered byte by byte is the one that the payload bits give, and it is a scalar value. -/
theorem scalarValue_cons {b : UInt8} {p : Partial} {v : Bytes} (h : Decoder.opened? b = some p) (hv : p.Completes v) :
    scalarValue (b :: v) = p.finish v ∧ IsScalar (p.finish v) := by
  unfold Decoder.opened? at h
  simp only [UInt8.le_iff_toNat_le, ← UInt8.toNat_inj, UInt8.reduceToNat] at h
  -- One case for each kind of lead byte and each length of what follows; the wrong lengths contradict `hv`.
  repeat' split at h
  all_goals simp only [Option.some.injEq, reduceCtorEq] at h
  all_goals
    subst h
    rcases v with _ | ⟨c, _ | ⟨d, _ | ⟨e, _ | ⟨f, v⟩⟩⟩⟩
  all_goals
    simp only [Partial.Completes, HasForm, List.replicate, Nat.add_one_sub_one, and_false, and_true, Nat.sub_self,
      UInt8.le_iff_toNat_le, UInt8.reduceToNat] at hv
  all_goals
    simp only [Partial.finish, scalarValue, List.foldl_cons, List.foldl_nil, IsScalar]
    omega

theorem opened?_bounds {b : UInt8} {p : Partial} (h : Decoder.opened? b = some p) :
    p.low ≤ p.high ∧ 0 < p.missing := by
  unfold Decoder.opened? at h
  simp only at h
  repeat' split at h
  all_goals simp only [Option.some.injEq, reduceCtorEq] at h
  all_goals
    subst h
    dsimp only
    decide

theorem IsWellFormed.isScalar {u : Bytes} (h : IsWellFormed u) : IsScalar (scalarValue u) := by
  cases u with
  | nil => exact (not_isWellFormed_nil h).elim
  | cons b u =>
    rcases (isWellFormed_cons b u).1 h with ⟨hb, rfl⟩ | ⟨p, hp, hc⟩
    · simp only [UInt8.le_iff_toNat_le, UInt8.reduceToNat] at hb
      exact .inl ⟨by simp only [scalarValue]; omega, by simp only [scalarValue]; omega⟩
    · rw [(scalarValue_cons hp hc).1]
      exact (scalarValue_cons hp hc).2

/-- No well-formed sequence begins another one. -/
theorem IsWellFormed.prefix_free {u v : Bytes} (h : IsWellFormed u) (h' : IsWellFormed (u ++ v)) : v = [] := by
  cases u with
  | nil => exact (not_isWellFormed_nil h).elim
  | cons b u =>
    rcases (isWellFormed_cons b u).1 h with ⟨hb, rfl⟩ | ⟨p, hp, hc⟩
    · rcases (isWellFormed_cons b _).1 h' with ⟨-, hv⟩ | ⟨p, hp, -⟩
      · exact hv
      · have : Decoder.opened? b = none := by
          simp only [Decoder.opened?, UInt8.le_iff_toNat_le, ← UInt8.toNat_inj, UInt8.reduceToNat] at hb ⊢
          repeat' rw [if_neg (by omega)]
        rw [this] at hp
        cases hp
    · rcases (isWellFormed_cons b _).1 h' with ⟨-, hv⟩ | ⟨p', hp', hc'⟩
      · exact (List.append_eq_nil_iff.1 hv).2
      · obtain rfl : p' = p := Option.some.inj (hp'.symm.trans hp)
        have hlen := hc.length_eq
        have hlen' : (u ++ v).length = _ := hc'.length_eq
        rw [List.length_append] at hlen'
        exact List.length_eq_zero_iff.1 (by omega)

end ScreenWatch.Utf8
