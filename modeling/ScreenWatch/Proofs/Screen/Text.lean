import ScreenWatch.Proofs.Screen.Fits
import ScreenWatch.Proofs.Utf8.RoundTrip

/-!
# What a text tells of its screen

The text of a screen is the UTF-8 of its code points, row by row, with newlines between the rows
(`text_eq_encodeAll`).  If all of them are scalar values, two screens of one size have the same text exactly if
they show the same code point at every place (`text_eq_iff`).
-/

namespace ScreenWatch

open Utf8 (encodeAll)

/-! ### Joined rows -/

private theorem joined_map_encodeAll (rows : List (List Int)) :
    Text.joined [Text.newline] (rows.map encodeAll) = encodeAll (rows.intersperse [0x0A]).flatten := by
  unfold Text.joined
  induction rows with
  | nil => rfl
  | cons row rows ih =>
    cases rows with
    | nil => simp
    | cons row' rows =>
      rw [List.map_cons, List.map_cons, List.intersperse_cons_cons, List.flatten_cons, List.flatten_cons,
        ← List.map_cons, ih, List.intersperse_cons_cons, List.flatten_cons, List.flatten_cons]
      have hn : encodeAll [0x0A] = [Text.newline] := by decide
      simp only [encodeAll, List.flatMap_append] at hn ⊢
      rw [hn]

/-- Rows of the same lengths are known from what they make when they are joined. -/
private theorem flatten_intersperse_inj {α : Type} {sep : List α} {rows rows' : List (List α)}
    (hlen : rows.map List.length = rows'.map List.length)
    (h : (rows.intersperse sep).flatten = (rows'.intersperse sep).flatten) : rows = rows' := by
  induction rows generalizing rows' with
  | nil =>
    cases rows' with
    | nil => rfl
    | cons row' rows' => cases hlen
  | cons row rows ih =>
    cases rows' with
    | nil => cases hlen
    | cons row' rows' =>
      obtain ⟨hrow, hrows⟩ := List.cons.inj hlen
      cases rows with
      | nil =>
        obtain rfl := List.map_eq_nil_iff.1 hrows.symm
        simpa using h
      | cons second rows =>
        cases rows' with
        | nil => cases hrows
        | cons second' rows' =>
          simp only [List.intersperse_cons_cons, List.flatten_cons] at h
          obtain ⟨rfl, h⟩ := List.append_inj h hrow
          have hrest := List.append_cancel_left (List.append_cancel_left h)
          rw [ih hrows hrest]

private theorem mem_of_mem_intersperse {α : Type} {sep a : α} {l : List α} (h : a ∈ l.intersperse sep) :
    a = sep ∨ a ∈ l := by
  induction l with
  | nil => cases h
  | cons b l ih =>
    cases l with
    | nil => exact .inr h
    | cons c l =>
      rw [List.intersperse_cons_cons, List.mem_cons, List.mem_cons] at h
      rcases h with rfl | rfl | h
      · simp
      · simp
      · rcases ih h with rfl | hmem
        · exact .inl rfl
        · exact .inr (List.mem_cons_of_mem b hmem)

/-! ### Texts of screens -/

namespace Screen

def codeRows (s : Screen) : List (List Int) :=
  (List.range s.height).map fun y => (List.range s.width).map fun x => (s.cellAt y x).code

theorem text_eq_joined (s : Screen) : s.text = Text.joined [Text.newline] (s.codeRows.map encodeAll) := by
  rw [codeRows, List.map_map]
  unfold text layout
  congr 2
  funext y
  rw [Function.comp_apply, encodeAll, List.flatMap_map]
  rfl

theorem text_eq_encodeAll (s : Screen) : s.text = encodeAll (s.codeRows.intersperse [0x0A]).flatten := by
  rw [text_eq_joined, joined_map_encodeAll]

variable {s t : Screen}

theorem isScalar_codes (hs : ∀ y x, Utf8.IsScalar (s.cellAt y x).code) :
    ∀ c ∈ (s.codeRows.intersperse [0x0A]).flatten, Utf8.IsScalar c := by
  intro c hc
  obtain ⟨row, hrow, hc⟩ := List.mem_flatten.1 hc
  rcases mem_of_mem_intersperse hrow with rfl | hrow
  · obtain rfl := List.mem_singleton.1 hc
    decide
  · obtain ⟨y, -, rfl⟩ := List.mem_map.1 hrow
    obtain ⟨x, -, rfl⟩ := List.mem_map.1 hc
    exact hs y x

/-- Comparing the texts is comparing the code points, place by place. -/
theorem text_eq_iff (hw : t.width = s.width) (hh : t.height = s.height)
    (hs : ∀ y x, Utf8.IsScalar (s.cellAt y x).code) (ht : ∀ y x, Utf8.IsScalar (t.cellAt y x).code) :
    s.text = t.text ↔ ∀ y < s.height, ∀ x < s.width, (s.cellAt y x).code = (t.cellAt y x).code := by
  rw [text_eq_encodeAll, text_eq_encodeAll, Utf8.encodeAll_inj (isScalar_codes hs) (isScalar_codes ht)]
  have hrows : s.codeRows = t.codeRows ↔
      ∀ y < s.height, ∀ x < s.width, (s.cellAt y x).code = (t.cellAt y x).code := by
    simp only [codeRows, hw, hh, List.map_inj_left, List.mem_range]
  rw [← hrows]
  have hlen : s.codeRows.map List.length = t.codeRows.map List.length := by
    simp only [codeRows, hw, hh, List.map_map, Function.comp_def, List.length_map, List.length_range]
  constructor
  · intro h
    exact flatten_intersperse_inj hlen h
  · intro h
    rw [h]

end Screen

end ScreenWatch
