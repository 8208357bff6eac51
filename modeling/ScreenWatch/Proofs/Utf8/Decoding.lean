import ScreenWatch.Escape.Grammar
import ScreenWatch.Proofs.Utf8.WellFormed

/-!
# The decoding of a text

`Decodes` is the decoding that the Unicode Standard asks for, sequence by sequence: a well-formed sequence stands
for its scalar value, a maximal subpart of an ill-formed one is replaced, and a text that ends within a sequence
waits for the rest.  A text has one such decoding (`Decodes.unique`), and the decoder finds it (`run_decodes`): the
unfinished sequence that it keeps knows what may follow (`Remembers`).
-/

namespace ScreenWatch

namespace Utf8

/-- Of a text `u ++ rest` that begins with no well-formed sequence and with more than a part of one at its start,
`u` is the longest part that begins a well-formed sequence, or the first byte if that begins none. -/
structure IsMaximalSubpart (u rest : Bytes) : Prop where
  ill_formed : ∀ v, v <+: u ++ rest → ¬ IsWellFormed v
  not_unfinished : ¬ IsInitial (u ++ rest)
  ne_nil : u ≠ []
  initial_or_single : IsInitial u ∨ u.length = 1
  longest : ∀ v, v <+: u ++ rest → IsInitial v → v.length ≤ u.length

/-- A text stands for some code points and ends within a sequence, of which it has a part. -/
inductive Decodes : Bytes → List Int → Bytes → Prop
  | unfinished {part : Bytes} : IsInitial part → ¬ IsWellFormed part → Decodes part [] part
  | scalar {u rest : Bytes} {codes : List Int} {part : Bytes} :
    IsWellFormed u → Decodes rest codes part → Decodes (u ++ rest) (scalarValue u :: codes) part
  | replaced {u rest : Bytes} {codes : List Int} {part : Bytes} :
    IsMaximalSubpart u rest → Decodes rest codes part → Decodes (u ++ rest) (replacement :: codes) part

/-! ### A text has one decoding -/

private theorem IsMaximalSubpart.length_le {u rest u' rest' : Bytes} (h : IsMaximalSubpart u rest)
    (h' : IsMaximalSubpart u' rest') (e : u ++ rest = u' ++ rest') : u.length ≤ u'.length := by
  rcases h.initial_or_single with hi | h1
  · exact h'.longest u (e ▸ List.prefix_append u rest) hi
  · have := List.length_pos_iff.2 h'.ne_nil
    omega

private theorem IsWellFormed.eq_of_append {u rest u' rest' : Bytes} (h : IsWellFormed u) (h' : IsWellFormed u')
    (e : u ++ rest = u' ++ rest') : u = u' := by
  rcases List.append_eq_append_iff.1 e with ⟨v, rfl, -⟩ | ⟨v, rfl, -⟩
  · rw [h.prefix_free h', List.append_nil]
  · rw [h'.prefix_free h, List.append_nil]

/-- A well-formed sequence at the start of an unfinished text is all of it. -/
private theorem IsInitial.isWellFormed_of_prefix {u rest : Bytes} (h : IsInitial (u ++ rest)) (hu : IsWellFormed u) :
    IsWellFormed (u ++ rest) := by
  obtain ⟨v, hv⟩ := h
  rw [List.append_assoc] at hv
  rw [(List.append_eq_nil_iff.1 (hu.prefix_free hv)).1, List.append_nil]
  exact hu

theorem Decodes.unique {s : Bytes} {codes codes' : List Int} {part part' : Bytes} (h : Decodes s codes part)
    (h' : Decodes s codes' part') : codes = codes' ∧ part = part' := by
  -- What a text begins with decides the rule of its decoding: the three rules exclude one another.
  induction h generalizing codes' with
  | @unfinished part hi hw =>
    generalize hs : part = s at h'
    cases h' with
    | unfinished _ _ => exact ⟨rfl, rfl⟩
    | scalar hu _ =>
      subst hs
      exact (hw (hi.isWellFormed_of_prefix hu)).elim
    | replaced hm _ =>
      subst hs
      exact (hm.not_unfinished hi).elim
  | @scalar u rest codes part hu hr ih =>
    generalize hs : u ++ rest = s at h'
    cases h' with
    | unfinished hi hw =>
      subst hs
      exact (hw (hi.isWellFormed_of_prefix hu)).elim
    | scalar hu' hr' =>
      obtain rfl := hu.eq_of_append hu' hs
      obtain rfl := List.append_cancel_left hs
      obtain ⟨rfl, rfl⟩ := ih hr'
      exact ⟨rfl, rfl⟩
    | replaced hm _ => exact (hm.ill_formed u (hs ▸ List.prefix_append u rest) hu).elim
  | @replaced u rest codes part hm hr ih =>
    generalize hs : u ++ rest = s at h'
    cases h' with
    | unfinished hi _ =>
      subst hs
      exact (hm.not_unfinished hi).elim
    | scalar hu' _ => exact (hm.ill_formed _ (hs ▸ List.prefix_append _ _) hu').elim
    | replaced hm' hr' =>
      have hlen := Nat.le_antisymm (hm.length_le hm' hs) (hm'.length_le hm hs.symm)
      obtain ⟨rfl, rfl⟩ := List.append_inj hs hlen
      obtain ⟨rfl, rfl⟩ := ih hr'
      exact ⟨rfl, rfl⟩

theorem Decodes.isScalar {s : Bytes} {codes : List Int} {part : Bytes} (h : Decodes s codes part) :
    ∀ c ∈ codes, IsScalar c := by
  induction h with
  | unfinished _ _ => simp
  | scalar hu _ ih =>
    intro c hc
    rcases List.mem_cons.1 hc with rfl | hc
    · exact hu.isScalar
    · exact ih c hc
  | replaced _ _ ih =>
    intro c hc
    rcases List.mem_cons.1 hc with rfl | hc
    · decide
    · exact ih c hc

/-! ### The decoder finds the decoding -/

/-- The unfinished sequence kept after a part `u` of a well-formed one: what finishes `u`, and to which value. -/
structure Remembers (u : Bytes) (p : Partial) : Prop where
  ne_nil : u ≠ []
  isWellFormed_iff : ∀ v, IsWellFormed (u ++ v) ↔ p.Completes v
  scalarValue_eq : ∀ v, p.Completes v → scalarValue (u ++ v) = p.finish v
  low_le_high : p.low ≤ p.high
  missing_pos : 0 < p.missing

/-- The state of a decoder after a text that ends with a part of a sequence. -/
inductive Decoder.Holds : Bytes → Decoder → Prop
  | nothing : Holds [] start
  | part {u : Bytes} {p : Partial} : Remembers u p → Holds u ⟨some p⟩

theorem Decoder.Holds.isPending_iff {u : Bytes} {d : Decoder} (h : Holds u d) : d.isPending = true ↔ u ≠ [] := by
  cases h with
  | nothing => simp [isPending, start]
  | part hp => simp [isPending, hp.ne_nil]

private theorem hasForm_replicate (n : Nat) : HasForm (List.replicate n (0x80, 0xBF)) (List.replicate n 0x80) := by
  induction n with
  | zero => trivial
  | succ n ih => exact ⟨by decide, ih⟩

namespace Remembers

variable {u : Bytes} {p : Partial}

theorem isInitial (h : Remembers u p) : IsInitial u :=
  ⟨p.low :: List.replicate (p.missing - 1) 0x80, (h.isWellFormed_iff _).2
    ⟨⟨UInt8.le_refl _, h.low_le_high⟩, hasForm_replicate _⟩⟩

theorem not_isWellFormed (h : Remembers u p) : ¬ IsWellFormed u := by
  intro hu
  rw [← List.append_nil u, h.isWellFormed_iff] at hu
  exact hu

/-- A byte out of the range that is remembered breaks the sequence. -/
theorem not_isInitial (h : Remembers u p) {b : UInt8} (hb : ¬(p.low ≤ b ∧ b ≤ p.high)) (v : Bytes) :
    ¬ IsInitial (u ++ b :: v) := by
  rintro ⟨w, hw⟩
  rw [List.append_assoc, h.isWellFormed_iff] at hw
  exact hb hw.1

theorem isMaximalSubpart (h : Remembers u p) {b : UInt8} (hb : ¬(p.low ≤ b ∧ b ≤ p.high)) (rest : Bytes) :
    IsMaximalSubpart u (b :: rest) where
  ill_formed v hv hw := by
    obtain ⟨r, hr⟩ := hv
    rcases List.append_eq_append_iff.1 hr with ⟨t, rfl, -⟩ | ⟨t, rfl, ht⟩
    · exact h.not_isWellFormed (h.isInitial.isWellFormed_of_prefix hw)
    · cases t with
      | nil => exact h.not_isWellFormed (by simpa using hw)
      | cons c t =>
        obtain ⟨rfl, -⟩ := List.cons.inj ht
        exact h.not_isInitial hb t ⟨[], by simpa using hw⟩
  not_unfinished := h.not_isInitial hb rest
  ne_nil := h.ne_nil
  initial_or_single := .inl h.isInitial
  longest v hv hi := by
    obtain ⟨r, hr⟩ := hv
    rcases List.append_eq_append_iff.1 hr with ⟨t, rfl, -⟩ | ⟨t, rfl, ht⟩
    · simp
    · cases t with
      | nil => simp
      | cons c t =>
        obtain ⟨rfl, -⟩ := List.cons.inj ht
        exact (h.not_isInitial hb t hi).elim

theorem finished (h : Remembers u p) (h1 : p.missing = 1) {b : UInt8} (hb : p.low ≤ b ∧ b ≤ p.high) :
    IsWellFormed (u ++ [b]) ∧ scalarValue (u ++ [b]) = 64 * p.value + (b.toNat - 0x80) := by
  have hc : p.Completes [b] := by
    unfold Partial.Completes
    rw [h1]
    exact ⟨hb, trivial⟩
  exact ⟨(h.isWellFormed_iff _).2 hc, h.scalarValue_eq _ hc⟩

theorem continued (h : Remembers u p) (h1 : 1 < p.missing) {b : UInt8} (hb : p.low ≤ b ∧ b ≤ p.high) :
    Remembers (u ++ [b]) ⟨64 * p.value + (b.toNat - 0x80), p.missing - 1, 0x80, 0xBF⟩ := by
  have hc : ∀ v, p.Completes (b :: v) ↔
      Partial.Completes ⟨64 * p.value + (b.toNat - 0x80), p.missing - 1, 0x80, 0xBF⟩ v := by
    intro v
    obtain ⟨m, hm⟩ : ∃ m, p.missing = m + 2 := ⟨p.missing - 2, by omega⟩
    unfold Partial.Completes
    rw [hm]
    exact ⟨fun hv => hv.2, fun hv => ⟨hb, hv⟩⟩
  refine ⟨by simp, ?_, ?_, (by decide : (0x80 : UInt8) ≤ 0xBF), Nat.sub_pos_of_lt h1⟩
  · intro v
    rw [List.append_assoc, h.isWellFormed_iff]
    exact hc v
  · intro v hv
    rw [List.append_assoc, List.singleton_append, h.scalarValue_eq _ ((hc v).2 hv)]
    simp only [Partial.finish, List.foldl_cons]

end Remembers

/-- A byte at the start of something new is a sequence of its own, begins one, or does neither. -/
private theorem fresh_cases (b : UInt8) :
    (IsWellFormed [b] ∧ Decoder.fresh b = ([(scalarValue [b] : Int)], .start)) ∨
      (∃ p, Remembers [b] p ∧ Decoder.fresh b = ([], ⟨some p⟩)) ∨
        (¬ IsInitial [b] ∧ Decoder.fresh b = ([replacement], .start)) := by
  unfold Decoder.fresh
  by_cases hb : b ≤ 0x7F
  · exact .inl ⟨(isWellFormed_cons b []).2 (.inl ⟨hb, rfl⟩), by rw [if_pos hb]; rfl⟩
  · rw [if_neg hb]
    cases hp : Decoder.opened? b with
    | some p =>
      have hc : ∀ v, IsWellFormed (b :: v) ↔ p.Completes v := by
        intro v
        simp [isWellFormed_cons, hb, hp]
      have hv : ∀ v, p.Completes v → scalarValue (b :: v) = p.finish v := by
        intro v hv
        exact (scalarValue_cons hp hv).1
      obtain ⟨hle, hpos⟩ := opened?_bounds hp
      exact .inr (.inl ⟨p, ⟨by simp, hc, hv, hle, hpos⟩, rfl⟩)
    | none =>
      refine .inr (.inr ⟨?_, rfl⟩)
      rintro ⟨v, hv⟩
      rcases (isWellFormed_cons b v).1 hv with ⟨h, -⟩ | ⟨p, h, -⟩
      · exact hb h
      · rw [hp] at h
        cases h

private theorem isMaximalSubpart_single {b : UInt8} (hb : ¬ IsInitial [b]) (rest : Bytes) :
    IsMaximalSubpart [b] rest where
  ill_formed v hv hw := by
    cases v with
    | nil => exact not_isWellFormed_nil hw
    | cons c v =>
      obtain ⟨rfl, -⟩ := List.cons_prefix_cons.1 hv
      exact hb ⟨v, hw⟩
  not_unfinished h := hb h.of_append
  ne_nil := by simp
  initial_or_single := .inr rfl
  longest v hv hi := by
    cases v with
    | nil => simp
    | cons c v =>
      obtain ⟨rfl, -⟩ := List.cons_prefix_cons.1 hv
      exact (hb (IsInitial.of_append (u := [c]) hi)).elim

open Decoder (Holds)

/-- What the decoder gives for a text, and what it keeps at its end, are the decoding of the text, if that is so
for all texts that go on after the first byte. -/
private theorem decodes_fresh (b : UInt8) (s : Bytes)
    (ih : ∀ u d, Holds u d → ∃ part, Decodes (u ++ s) (d.run s).1 part ∧ Holds part (d.run s).2) :
    ∃ part, Decodes (b :: s) ((Decoder.fresh b).1 ++ ((Decoder.fresh b).2.run s).1) part ∧
      Holds part ((Decoder.fresh b).2.run s).2 := by
  rcases fresh_cases b with ⟨hw, e⟩ | ⟨p, hp, e⟩ | ⟨hi, e⟩ <;> rw [e]
  · obtain ⟨part, hd, hh⟩ := ih [] .start .nothing
    exact ⟨part, .scalar hw hd, hh⟩
  · exact ih [b] ⟨some p⟩ (.part hp)
  · obtain ⟨part, hd, hh⟩ := ih [] .start .nothing
    exact ⟨part, .replaced (isMaximalSubpart_single hi s) hd, hh⟩

/-- From a state that holds a part of a sequence the decoder gives the decoding of that part and the text. -/
theorem run_decodes {u : Bytes} {d : Decoder} (h : Holds u d) (s : Bytes) :
    ∃ part, Decodes (u ++ s) (d.run s).1 part ∧ Holds part (d.run s).2 := by
  -- The induction is on what is still to come; the part that is held grows or starts anew with each byte.
  induction s generalizing u d with
  | nil =>
    refine ⟨u, ?_, h⟩
    rw [List.append_nil]
    cases h with
    | nothing => exact .unfinished isInitial_nil not_isWellFormed_nil
    | part hp => exact .unfinished hp.isInitial hp.not_isWellFormed
  | cons b s ih =>
    rw [Decoder.run_cons]
    have hfresh := decodes_fresh b s fun u d h => ih h
    cases h with
    | nothing => exact hfresh
    | @part u p hp =>
      by_cases hb : p.low ≤ b ∧ b ≤ p.high
      · rw [List.append_cons]
        by_cases h1 : p.missing ≤ 1
        · have he : Decoder.step ⟨some p⟩ b = ([((64 * p.value + (b.toNat - 0x80) : Nat) : Int)], .start) := by
            simp only [Decoder.step, if_pos hb, if_pos h1]
          obtain ⟨hw, hv⟩ := hp.finished (Nat.le_antisymm h1 hp.missing_pos) hb
          obtain ⟨part, hd, hh⟩ := ih (u := []) .nothing
          rw [he, ← hv]
          exact ⟨part, .scalar hw hd, hh⟩
        · have he : Decoder.step ⟨some p⟩ b =
              ([], ⟨some ⟨64 * p.value + (b.toNat - 0x80), p.missing - 1, 0x80, 0xBF⟩⟩) := by
            simp only [Decoder.step, if_pos hb, if_neg h1]
          rw [he]
          exact ih (.part (hp.continued (by omega) hb))
      · have he : Decoder.step ⟨some p⟩ b = (replacement :: (Decoder.fresh b).1, (Decoder.fresh b).2) := by
          simp only [Decoder.step, if_neg hb]
        obtain ⟨part, hd, hh⟩ := hfresh
        rw [he]
        exact ⟨part, .replaced (hp.isMaximalSubpart hb s) hd, hh⟩

/-! ### Chunks -/

/-- The code points of chunks that arrive one after another, and the decoder after them. -/
def Decoder.feed (d : Decoder) : List Bytes → List Int × Decoder
  | [] => ([], d)
  | chunk :: rest => ((d.run chunk).1 ++ ((d.run chunk).2.feed rest).1, ((d.run chunk).2.feed rest).2)

theorem Decoder.feed_eq_run (d : Decoder) (chunks : List Bytes) : d.feed chunks = d.run chunks.flatten := by
  induction chunks generalizing d with
  | nil => rfl
  | cons chunk rest ih => rw [feed, ih, List.flatten_cons, run_append]

end Utf8

namespace Escape.Stream

/-- The actions of chunks that arrive one after another, and the stream after them. -/
def feed (s : Stream) : List Bytes → List Action × Stream
  | [] => ([], s)
  | chunk :: rest => ((s.take chunk).1 ++ ((s.take chunk).2.feed rest).1, ((s.take chunk).2.feed rest).2)

theorem feed_eq_take (s : Stream) (chunks : List Bytes) : s.feed chunks = s.take chunks.flatten := by
  induction chunks generalizing s with
  | nil => rfl
  | cons chunk rest ih => rw [feed, ih, List.flatten_cons, take_append]

open Utf8 in
/-- However a text is cut into chunks, its one decoding is handed to the grammar, code point by code point; a
sequence is pending exactly if the text ends within one, and nothing but scalar values is handed on. -/
theorem feed_decodes (chunks : List Bytes) :
    ∃ codes part decoder, Decoder.start.feed chunks = (codes, decoder) ∧
      (∀ codes' part', Decodes chunks.flatten codes' part' ↔ codes' = codes ∧ part' = part) ∧
      (decoder.isPending = true ↔ part ≠ []) ∧ (∀ c ∈ codes, IsScalar c) ∧
      start.feed chunks = ((run .ground codes).1, ⟨decoder, (run .ground codes).2⟩) := by
  obtain ⟨part, hd, hh⟩ := run_decodes .nothing chunks.flatten
  refine ⟨_, part, _, Decoder.feed_eq_run _ chunks, ?_, hh.isPending_iff, hd.isScalar, feed_eq_take _ chunks⟩
  intro codes' part'
  constructor
  · intro h
    exact h.unique hd
  · rintro ⟨rfl, rfl⟩
    exact hd

end Escape.Stream

end ScreenWatch
