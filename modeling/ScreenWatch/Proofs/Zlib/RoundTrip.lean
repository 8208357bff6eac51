import ScreenWatch.Proofs.Zlib.Stored
import ScreenWatch.Zlib.Frame

/-!
# Frames come back

With a library that loses nothing (`Library.IsLossless`) a compressed frame is uncompressed to what it was, if it is not
over the limit, and only with its true length (`frames_round_trip`).  What earlier calls have left in the buffers on both
sides does not matter.  `Library.storing` is such a library.
-/

namespace ScreenWatch.Zlib

/-! ### Lossless libraries -/

/-- The call has written the data to the start of the space, and reports its length. -/
structure Answer.Gives (answer : Answer) (data : Bytes) : Prop where
  error : answer.error = none
  length : answer.length = data.length
  written : data <+: answer.written

namespace Library

/-- The library uncompresses the frame to the data, where there is enough space for it.  Less space than that is an
error; it need not be one for a single byte without any space. -/
structure Unpacks (l : Library) (frame data : Bytes) : Prop where
  gives : ∀ {space}, data.length ≤ space → (l.uncompress space frame).Gives data
  noSpace : ∀ {space}, 0 < space → space < data.length → (l.uncompress space frame).error = some .noSpace
  refuses : 2 ≤ data.length → (l.uncompress 0 frame).error ≠ none

def IsLossless (l : Library) : Prop :=
  ∀ data, ∃ frame, (l.compress (l.bound data.length) data).Gives frame ∧ l.Unpacks frame data

private theorem storing_unpacks (data : Bytes) : storing.Unpacks (stored data) data where
  gives {space} h := by
    have hinflate : inflate (stored data) (max space 1) = ⟨none, data⟩ := inflate_stored (by omega)
    have hanswer : inflateWithin space (stored data) = ⟨data, data.length, none⟩ := by
      unfold inflateWithin
      rw [hinflate]
      simp only [List.take_of_length_le h]
    show (inflateWithin space (stored data)).Gives data
    exact hanswer ▸ ⟨rfl, rfl, List.prefix_rfl⟩
  noSpace {space} hpos h := by
    have hinflate : inflate (stored data) (max space 1) = ⟨some .stalled, data.take (max space 1)⟩ :=
      inflate_stored_of_lt (by omega)
    have hwritten : ((data.take (max space 1)).take space).length = space := by
      simp only [List.length_take]
      omega
    show (inflateWithin space (stored data)).error = _
    unfold inflateWithin
    rw [hinflate]
    simp only [hwritten, and_true, if_pos (Nat.ne_of_gt hpos)]
  refuses h := by
    show (inflateWithin 0 (stored data)).error ≠ none
    unfold inflateWithin
    rw [inflate_stored_of_lt (by omega)]
    simp

theorem storing_isLossless : storing.IsLossless := by
  intro data
  have hanswer : answerWithin (storing.bound data.length) (stored data) = ⟨stored data, (stored data).length, none⟩ :=
    if_pos (stored_length_le data)
  refine ⟨stored data, ?_, storing_unpacks data⟩
  show (answerWithin _ (stored data)).Gives _
  exact hanswer ▸ ⟨rfl, rfl, List.prefix_rfl⟩

end Library

/-! ### Calls -/

namespace Compressor

variable {l : Library} {data frame : Bytes} {n : Nat} {e : CallError}

private theorem modify_bind {α : Type} (f : Compressor → Compressor) (act : CompressorM α) (c : Compressor) :
    (do modify f; act : CompressorM α) c = act (f c) := rfl

theorem acceptAnswer_of_gives {answer : Answer} (h : answer.Gives data) (failed : CallError → FrameError)
    (c : Compressor) :
    ∃ c', acceptAnswer answer failed c = .ok data.length c' ∧ data <+: c'.buffer.toList := by
  refine ⟨{ buffer := answer.written.toArray ++ c.buffer.drop answer.written.length }, ?_, ?_⟩
  · unfold acceptAnswer
    rw [modify_bind, h.error, h.length]
    rfl
  · rw [Array.toList_append]
    exact h.written.trans (List.prefix_append _ _)

theorem acceptAnswer_of_error {answer : Answer} (h : answer.error = some e) (failed : CallError → FrameError)
    (c : Compressor) : ∃ c', acceptAnswer answer failed c = .error (failed e) c' := by
  refine ⟨{ buffer := answer.written.toArray ++ c.buffer.drop answer.written.length }, ?_⟩
  unfold acceptAnswer
  rw [modify_bind, h]
  rfl

theorem readBuffer_of_starts {c : Compressor} (h : data <+: c.buffer.toList) :
    readBuffer data.length c = .ok data c := by
  have htake : (c.buffer.take data.length).toList = data := by
    rw [Array.take_eq_extract, Array.toList_extract, List.extract_eq_take_drop]
    exact (List.prefix_iff_eq_take.1 h).symm
  show EStateM.Result.ok _ _ = _
  rw [htake]

theorem compress_of_gives (h : (l.compress (l.bound data.length) data).Gives frame) (c : Compressor) :
    ∃ c', compress l data c = .ok frame c' := by
  obtain ⟨c', haccept, hstarts⟩ := acceptAnswer_of_gives h .compressFailed
    { buffer := c.buffer.take (l.bound data.length) ++ Array.replicate (l.bound data.length - c.buffer.size) 0 }
  exact ⟨c', (modify_bind ..).trans ((bind_of_ok haccept).trans (readBuffer_of_starts hstarts))⟩

theorem uncompress_of_lt (h : maxFrame < n) (c : Compressor) : uncompress l frame n c = .error .oversized c := by
  unfold uncompress
  rw [if_pos h]
  exact bind_of_error rfl

/-- Within the limit, the buffer gets its size and the library is called. -/
theorem uncompress_of_le (l : Library) (frame : Bytes) (h : n ≤ maxFrame) (c : Compressor) :
    ∃ c', uncompress l frame n c =
      (do
        let found ← acceptAnswer (l.uncompress n frame) .uncompressFailed
        if found ≠ n then throw .wrongLength
        readBuffer found : CompressorM Bytes) c' := by
  unfold uncompress
  rw [if_neg (Nat.not_lt.2 h)]
  exact ⟨_, modify_bind ..⟩

theorem uncompress_of_error (hn : n ≤ maxFrame) (h : (l.uncompress n frame).error = some e) (c : Compressor) :
    ∃ c', uncompress l frame n c = .error (.uncompressFailed e) c' := by
  obtain ⟨c₁, heq⟩ := uncompress_of_le l frame hn c
  obtain ⟨c₂, haccept⟩ := acceptAnswer_of_error h .uncompressFailed c₁
  exact ⟨c₂, heq.trans (bind_of_error haccept)⟩

theorem uncompress_of_gives (hn : n ≤ maxFrame) (h : (l.uncompress n frame).Gives data) (c : Compressor) :
    ∃ c', uncompress l frame n c = if data.length = n then .ok data c' else .error .wrongLength c' := by
  obtain ⟨c₁, heq⟩ := uncompress_of_le l frame hn c
  obtain ⟨c₂, haccept, hstarts⟩ := acceptAnswer_of_gives h .uncompressFailed c₁
  refine ⟨c₂, heq.trans ((bind_of_ok haccept).trans ?_)⟩
  by_cases hlen : data.length = n
  · rw [if_pos hlen, if_neg (not_not.2 hlen)]
    exact readBuffer_of_starts hstarts
  · rw [if_neg hlen, if_pos hlen]
    exact bind_of_error rfl

/-- With a wrong length the frame is refused, unless the library does not mind that a single byte has no space. -/
private theorem uncompress_of_ne (hframe : l.Unpacks frame data) (hn : n ≤ maxFrame) (hne : n ≠ data.length)
    (hbyte : ¬ (n = 0 ∧ data.length = 1 ∧ (l.uncompress 0 frame).error = none)) (c : Compressor) :
    ∃ e c', uncompress l frame n c = .error e c' := by
  rcases Nat.lt_or_gt_of_ne hne with hlt | hgt
  · obtain ⟨e, he⟩ : ∃ e, (l.uncompress n frame).error = some e := by
      by_cases hpos : 0 < n
      · exact ⟨_, hframe.noSpace hpos hlt⟩
      · obtain rfl : n = 0 := by omega
        by_cases hone : data.length = 1
        · exact Option.ne_none_iff_exists'.1 fun hnone => hbyte ⟨rfl, hone, hnone⟩
        · exact Option.ne_none_iff_exists'.1 (hframe.refuses (by omega))
    exact ⟨_, uncompress_of_error hn he c⟩
  · obtain ⟨c', heq⟩ := uncompress_of_gives hn (hframe.gives hgt.le) c
    exact ⟨.wrongLength, c', heq.trans (if_neg hgt.ne)⟩

end Compressor

/-! ### There and back -/

open Compressor

/-- Data is compressed and comes back with its true length, up to the limit; with any other length it is refused. -/
theorem frames_round_trip (l : Library) (hl : l.IsLossless) (data : Bytes) (c : Compressor) :
    ∃ frame c₁, Compressor.compress l data c = .ok frame c₁ ∧ ∀ n c',
      (n = data.length → n ≤ maxFrame → ∃ c₂, Compressor.uncompress l frame n c' = .ok data c₂) ∧
      (n ≠ data.length ∨ maxFrame < n →
        ¬ (n = 0 ∧ data.length = 1 ∧ (l.uncompress 0 frame).error = none) →
        ∃ e c₂, Compressor.uncompress l frame n c' = .error e c₂) := by
  obtain ⟨frame, hgives, hframe⟩ := hl data
  obtain ⟨c₁, hcompress⟩ := compress_of_gives hgives c
  refine ⟨frame, c₁, hcompress, fun n c' => ⟨?_, ?_⟩⟩
  · intro hlen hn
    obtain ⟨c₂, heq⟩ := uncompress_of_gives hn (hframe.gives hlen.ge) c'
    exact ⟨c₂, heq.trans (if_pos hlen.symm)⟩
  · intro hwrong hbyte
    by_cases hn : maxFrame < n
    · exact ⟨_, c', uncompress_of_lt hn c'⟩
    · exact uncompress_of_ne hframe (Nat.le_of_not_lt hn) (hwrong.resolve_right hn) hbyte c'

/-- Three bytes come back from a buffer that has been used, and two or no bytes are not accepted for them. -/
theorem frames_round_trip_three_bytes :
    ∃ frame c₁, Compressor.compress .storing [7, 8, 9] { buffer := #[1, 2] } = .ok frame c₁ ∧
      (∃ c₂, Compressor.uncompress .storing frame 3 c₁ = .ok [7, 8, 9] c₂) ∧
      (∃ e c₂, Compressor.uncompress .storing frame 2 c₁ = .error e c₂) ∧
      ∃ e c₂, Compressor.uncompress .storing frame 0 c₁ = .error e c₂ := by
  obtain ⟨frame, c₁, hcompress, h⟩ := frames_round_trip .storing Library.storing_isLossless [7, 8, 9] { buffer := #[1, 2] }
  exact ⟨frame, c₁, hcompress, (h 3 c₁).1 rfl (by decide), (h 2 c₁).2 (.inl (by decide)) (by simp),
    (h 0 c₁).2 (.inl (by decide)) (by simp)⟩

/-- One byte more than the limit: the library would give the data back, and is not asked. -/
theorem longer_frame_is_refused :
    Library.storing.IsLossless ∧ ∃ frame c₁,
      Compressor.compress .storing (List.replicate 16777217 0) { } = .ok frame c₁ ∧
        Compressor.uncompress .storing frame (List.replicate 16777217 (0 : UInt8)).length c₁ = .error .oversized c₁ := by
  obtain ⟨frame, hgives, -⟩ := Library.storing_isLossless (List.replicate 16777217 0)
  obtain ⟨c₁, hcompress⟩ := compress_of_gives hgives { }
  refine ⟨Library.storing_isLossless, frame, c₁, hcompress, uncompress_of_lt ?_ c₁⟩
  rw [List.length_replicate]
  decide

/-- Between new compressors, whatever is within the limit comes back. -/
theorem uncompress_compress {data : Bytes} (h : data.length ≤ maxFrame) :
    uncompress (compress data) data.length = .ok data := by
  obtain ⟨frame, hgives, hframe⟩ := Library.storing_isLossless data
  obtain ⟨c₁, hcompress⟩ := compress_of_gives hgives { }
  obtain ⟨c₂, huncompress⟩ := uncompress_of_gives h (hframe.gives le_rfl) { }
  rw [if_pos rfl] at huncompress
  have hframe : compress data = frame := by
    unfold compress
    rw [hcompress]
  unfold uncompress
  rw [if_neg (by omega), hframe, Int.toNat_natCast, huncompress]

end ScreenWatch.Zlib
