import ScreenWatch.Proofs.Utf8.Decoding

/-!
# Writing and reading UTF-8

A scalar value is written as the one well-formed sequence that stands for it (`isWellFormed_encode`).  Hence the
decoder reads back what was written (`run_encodeAll`), and two lists of scalar values that are written alike are
equal (`encodeAll_inj`).  What a decoder makes of any text can be written and read again (`run_encodeAll_run`), and
the grammar does not see the difference between code points and their bytes (`feed_encodeAll`).
-/

namespace ScreenWatch

namespace Utf8

private theorem isWellFormed_encodeScalar {n : Nat} (h : IsScalar n) :
    IsWellFormed (encodeScalar n) ∧ scalarValue (encodeScalar n) = n := by
  unfold IsScalar at h
  unfold encodeScalar continuation
  -- One case for each length; which form has a lead byte of that length is left to arithmetic.
  repeat' split
  all_goals
    simp only [IsWellFormed, forms, List.mem_cons, List.not_mem_nil, or_false, exists_eq_or_imp, exists_eq_left,
      HasForm, and_true, and_false, false_or, UInt8.le_iff_toNat_le, UInt8.reduceToNat, scalarValue, Nat.toUInt8_eq,
      UInt8.toNat_ofNat', Nat.div_one]
    omega

theorem isWellFormed_encode {c : Int} (h : IsScalar c) : IsWellFormed (encode c) ∧ scalarValue (encode c) = c := by
  obtain ⟨n, rfl⟩ : ∃ n : Nat, c = n := by
    rcases h with ⟨h, -⟩ | ⟨h, -⟩ <;> exact ⟨c.toNat, by omega⟩
  rw [encode, if_pos h, Int.toNat_natCast]
  have := isWellFormed_encodeScalar h
  exact ⟨this.1, congrArg _ this.2⟩

theorem decodes_encodeAll {codes : List Int} (h : ∀ c ∈ codes, IsScalar c) : Decodes (encodeAll codes) codes [] := by
  induction codes with
  | nil => exact .unfinished isInitial_nil not_isWellFormed_nil
  | cons c rest ih =>
    have hc := isWellFormed_encode (h c (by simp))
    have hrest := ih fun d hd => h d (by simp [hd])
    have hd := Decodes.scalar hc.1 hrest
    rwa [hc.2] at hd

/-- What was written is read back, and nothing is pending then. -/
theorem run_encodeAll {codes : List Int} (h : ∀ c ∈ codes, IsScalar c) :
    Decoder.start.run (encodeAll codes) = (codes, .start) := by
  obtain ⟨part, hd, hh⟩ := run_decodes .nothing (encodeAll codes)
  obtain ⟨hcodes, rfl⟩ := hd.unique (decodes_encodeAll h)
  refine Prod.ext hcodes ?_
  generalize (Decoder.start.run (encodeAll codes)).2 = d at hh
  cases hh with
  | nothing => rfl
  | part hp => exact (hp.ne_nil rfl).elim

theorem encodeAll_inj {codes codes' : List Int} (h : ∀ c ∈ codes, IsScalar c) (h' : ∀ c ∈ codes', IsScalar c) :
    encodeAll codes = encodeAll codes' ↔ codes = codes' := by
  refine ⟨fun e => ?_, congrArg _⟩
  have hrun := run_encodeAll h
  rw [e, run_encodeAll h'] at hrun
  exact (congrArg Prod.fst hrun).symm

/-- The code points of a text, ill-formed or not, are read back when they are written. -/
theorem run_encodeAll_run (text : Bytes) :
    Decoder.start.run (encodeAll (Decoder.start.run text).1) = ((Decoder.start.run text).1, .start) := by
  obtain ⟨_, hd, -⟩ := run_decodes .nothing text
  exact run_encodeAll hd.isScalar

theorem Decoder.eq_start_of_not_pending {d : Decoder} (h : d.isPending = false) : d = .start := by
  obtain ⟨p⟩ := d
  cases p with
  | none => rfl
  | some p => cases h

end Utf8

namespace Escape.Stream

open Utf8

/-- The bytes of scalar values ask for what the scalar values themselves ask for, wherever in a sequence they come. -/
theorem take_encodeAll {s : Stream} (hs : s.decoder.isPending = false) {codes : List Int}
    (h : ∀ c ∈ codes, IsScalar c) :
    s.take (encodeAll codes) = ((run s.state codes).1, ⟨.start, (run s.state codes).2⟩) := by
  rw [take, Decoder.eq_start_of_not_pending hs, run_encodeAll h]

/-- Reading undoes writing.  Scalar values that are written ask for the same actions, and lead to the same state, as
if they were handed to the grammar themselves, however their bytes are cut into chunks; and the code points of a text,
ill-formed or not, are read back when they are written. -/
theorem feed_encodeAll :
    (∀ (s : Stream) (codes : List Int), s.decoder.isPending = false → (∀ c ∈ codes, IsScalar c) →
      ∀ chunks : List Bytes, chunks.flatten = encodeAll codes →
        s.feed chunks = ((run s.state codes).1, ⟨.start, (run s.state codes).2⟩)) ∧
      ∀ text : Bytes, Decoder.start.run (encodeAll (Decoder.start.run text).1) =
        ((Decoder.start.run text).1, .start) := by
  refine ⟨?_, run_encodeAll_run⟩
  intro s codes hs hcodes chunks hchunks
  rw [feed_eq_take, hchunks]
  exact take_encodeAll hs hcodes

/-- A digit and a letter of two bytes within a control sequence, byte by byte; and a text with a broken sequence. -/
theorem feed_encodeAll_bytewise :
    (∀ c ∈ [0x31, 0xE9], IsScalar c) ∧
      feed ⟨.start, .csi⟩ [[0x31], [0xC3], [0xA9]] = ([.param 0x31, .csiDispatch 0xE9], .start) ∧
      Decoder.start.run [0xC3, 0x41] = ([0xFFFD, 0x41], .start) ∧
      Decoder.start.run (encodeAll [0xFFFD, 0x41]) = ([0xFFFD, 0x41], .start) := by
  have hcodes : ∀ c ∈ [0x31, 0xE9], IsScalar c := by decide
  exact ⟨hcodes, feed_encodeAll.1 ⟨.start, .csi⟩ _ rfl hcodes [[0x31], [0xC3], [0xA9]] (by decide), rfl,
    feed_encodeAll.2 [0xC3, 0x41]⟩

end Escape.Stream

end ScreenWatch
