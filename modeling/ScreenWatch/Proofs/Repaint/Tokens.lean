import ScreenWatch.Proofs.Repaint.Sequences
import ScreenWatch.Repaint.Display

/-!
# The tokens of frames

What strokes send is a row of tokens of three kinds: carriage returns and line feeds, control sequences with decimal
parameters and one of six finals, and the contents of cells (`IsPainted`).  Pieces of this kind are put one after
another (`Stroke.Spells.all`), so the frames of an emulator that comes out of a run are of this kind too
(`Emulator.Reached.frame_tokens`).  Nothing else of a stream gets into a frame: what an emulator reads of it is either
kept in a cell, and then it is a scalar value that is no C0 control, or it is not sent at all.  DEL and the C1 controls
are kept in cells like any other character.
-/

namespace ScreenWatch

open Utf8 (IsScalar IsPrintable encode encodeAll Decoder)
open Escape (Token streamOf parameterCodes bodyCodes)

/-! ### ASCII -/

namespace Utf8

private theorem encode_byte {b : UInt8} (hb : b ≤ 0x7F) : encode (b.toNat : Int) = [b] := by
  have hle : b.toNat ≤ 0x7F := hb
  have hscalar : IsScalar (b.toNat : Int) := .inl ⟨by omega, by omega⟩
  rw [encode, if_pos hscalar, Int.toNat_natCast, encodeScalar, if_pos hle, Nat.toUInt8_eq, UInt8.ofNat_toNat]

theorem encodeAll_ascii {bytes : Bytes} (h : ∀ b ∈ bytes, b ≤ 0x7F) :
    encodeAll (bytes.map fun b => (b.toNat : Int)) = bytes := by
  induction bytes with
  | nil => rfl
  | cons b rest ih =>
    have hrest := ih fun c hc => h c (by simp [hc])
    rw [encodeAll, List.map_cons, List.flatMap_cons, encode_byte (h b (by simp)), ← encodeAll, hrest]
    rfl

end Utf8

namespace Repaint

/-- The finals of the control sequences that strokes send: `m H J K h l`. -/
def sentFinals : List Int := [0x6D, 0x48, 0x4A, 0x4B, 0x68, 0x6C]

/-- The tokens that are sent to paint a screen.  The parameters of a control sequence are digits and semicolons, with a
question mark where a mode is private. -/
def IsPainted (f : Screen) : Token → Prop
  | .control c _ => c = 0x0D ∨ c = 0x0A
  | .sequence body _ final _ => (∀ c ∈ body, c ∈ parameterCodes ∨ c = 0x3F) ∧ final ∈ sentFinals
  | .text c _ => IsPrintable c ∧ ∃ y < f.height, ∃ x < f.width, (f.cellAt y x).code = c
  | .escape _ _ | .command _ _ _ _ => False

/-- The bytes are those of tokens that paint `f`. -/
def Spelled (f : Screen) (bytes : Bytes) : Prop :=
  ∃ tokens : List Token, (∀ t ∈ tokens, IsPainted f t) ∧ bytes = encodeAll (tokens.flatMap Token.codes)

variable {f : Screen}

theorem IsPainted.isScalar {t : Token} (ht : IsPainted f t) : ∀ c ∈ t.codes, IsScalar c := by
  intro c hc
  cases t with
  | control d hd =>
    obtain rfl := List.mem_singleton.1 hc
    exact .inl ⟨hd.1, by omega⟩
  | escape d hd => exact ht.elim
  | command payload hpayload terminator hterminator => exact ht.elim
  | text d hd =>
    obtain rfl := List.mem_singleton.1 hc
    exact ht.1.1
  | sequence body hbody final hfinal =>
    obtain ⟨hsigns, hfinals⟩ := ht
    simp only [Token.codes, List.mem_cons, List.mem_append, List.not_mem_nil, or_false] at hc
    rcases hc with rfl | rfl | hc | rfl
    · decide
    · decide
    · have hall : ∀ c ∈ parameterCodes, IsScalar c := by decide
      rcases hsigns c hc with h | rfl
      · exact hall c h
      · decide
    · have hall : ∀ c ∈ sentFinals, IsScalar c := by decide
      exact hall c hfinals

/-! ### Pieces -/

namespace Spelled

variable {a b : Bytes}

theorem nil : Spelled f [] := ⟨[], by simp, rfl⟩

theorem append (ha : Spelled f a) (hb : Spelled f b) : Spelled f (a ++ b) := by
  obtain ⟨first, hfirst, rfl⟩ := ha
  obtain ⟨rest, hrest, rfl⟩ := hb
  refine ⟨first ++ rest, ?_, ?_⟩
  · exact List.forall_mem_append.2 ⟨hfirst, hrest⟩
  · rw [encodeAll, encodeAll, encodeAll, List.flatMap_append, List.flatMap_append]

theorem token {t : Token} (ht : IsPainted f t) : Spelled f (encodeAll t.codes) :=
  ⟨[t], by simpa using ht, by rw [List.flatMap_singleton]⟩

/-- The content of a cell. -/
theorem code {y x : Nat} (hy : y < f.height) (hx : x < f.width) (hc : IsPrintable (f.cellAt y x).code) :
    Spelled f (encode (f.cellAt y x).code) := by
  have ht : IsPainted f (.text (f.cellAt y x).code (.inr hc.2)) := ⟨hc, y, hy, x, hx, rfl⟩
  have hspelled := token ht
  rwa [Token.codes, encodeAll, List.flatMap_singleton] at hspelled

theorem carriageReturn : Spelled f [0x0D] := @token f (.control 0x0D (by decide)) (.inl rfl)

theorem lineFeeds (n : Nat) : Spelled f (List.replicate n 0x0A) := by
  induction n with
  | zero => exact nil
  | succ n ih =>
    have hfeed : Spelled f [0x0A] := @token f (.control 0x0A (by decide)) (.inr rfl)
    exact hfeed.append ih

/-- What may stand between `ESC [` and the final byte: a digit, a semicolon or a question mark. -/
private theorem code_of_sign {b : UInt8} (h : Text.isDigit b = true ∨ b = 0x3B ∨ b = 0x3F) :
    ((b.toNat : Int) ∈ parameterCodes ∨ (b.toNat : Int) = 0x3F) ∧ b ≤ 0x7F := by
  rw [← Escape.isParameter_iff]
  simp only [Text.isDigit, Escape.isParameter, Bool.and_eq_true, Bool.or_eq_true, decide_eq_true_eq, beq_iff_eq,
    UInt8.le_iff_toNat_le, ← UInt8.toNat_inj, UInt8.reduceToNat] at h ⊢
  omega

private theorem code_of_sentFinal {b : UInt8} (h : (b.toNat : Int) ∈ sentFinals) :
    (b.toNat : Int) ∉ bodyCodes ∧ b ≤ 0x7F := by
  have hall : ∀ c ∈ sentFinals, c ∉ bodyCodes ∧ c ≤ 0x7F := by decide
  obtain ⟨hfinal, hle⟩ := hall _ h
  refine ⟨hfinal, ?_⟩
  simp only [UInt8.le_iff_toNat_le, UInt8.reduceToNat]
  omega

/-- A control sequence. -/
theorem sequence {body : Bytes} (hbody : ∀ b ∈ body, Text.isDigit b = true ∨ b = 0x3B ∨ b = 0x3F) {final : UInt8}
    (hfinal : (final.toNat : Int) ∈ sentFinals) : Spelled f ([0x1B, 0x5B] ++ body ++ [final]) := by
  have hsigns : ∀ c ∈ body.map fun b : UInt8 => (b.toNat : Int), c ∈ parameterCodes ∨ c = 0x3F :=
    List.forall_mem_map.2 fun b hb => (code_of_sign (hbody b hb)).1
  have hcodes : ∀ c ∈ body.map fun b : UInt8 => (b.toNat : Int), c ∈ bodyCodes := by
    intro c hc
    rcases hsigns c hc with h | rfl
    · exact List.mem_append_left _ h
    · decide
  obtain ⟨hend, hle⟩ := code_of_sentFinal hfinal
  have ht : IsPainted f (.sequence _ hcodes final.toNat hend) := ⟨hsigns, hfinal⟩
  have hbytes : encodeAll (Token.sequence _ hcodes final.toNat hend).codes = [0x1B, 0x5B] ++ body ++ [final] := by
    rw [← Utf8.encodeAll_ascii (Escape.ascii_csi (fun b hb => (code_of_sign (hbody b hb)).2) hle)]
    simp [Token.codes]
  rw [← hbytes]
  exact token ht

/-- The sequence that selects a pen. -/
theorem sgr (p : Pen) : Spelled f p.sgr := by
  rw [Pen.sgr_eq]
  refine sequence ?_ (by decide)
  intro b hb
  rcases List.mem_append.1 hb with hb | hb
  · exact .inl (Text.isDigit_decimal 0 b hb)
  · obtain ⟨n, -, hb⟩ := List.mem_flatMap.1 hb
    rcases List.mem_cons.1 hb with rfl | hb
    · exact .inr (.inl rfl)
    · exact .inl (Text.isDigit_decimal n b hb)

theorem absoluteMove (row col : Nat) : Spelled f (Stroke.absoluteMove row col) := by
  have hbytes : Stroke.absoluteMove row col =
      [0x1B, 0x5B] ++ (Text.decimal (row + 1) ++ 0x3B :: Text.decimal (col + 1)) ++ [0x48] := by
    have hdec (n : Nat) : Text.decimalInt (n + 1) = Text.decimal (n + 1) := rfl
    simp only [Stroke.absoluteMove, hdec, List.append_assoc, List.cons_append, List.nil_append]
  rw [hbytes]
  refine sequence ?_ (by decide)
  intro b hb
  rcases List.mem_append.1 hb with hb | hb
  · exact .inl (Text.isDigit_decimal _ b hb)
  · rcases List.mem_cons.1 hb with rfl | hb
    · exact .inr (.inl rfl)
    · exact .inl (Text.isDigit_decimal _ b hb)

theorem moveBytes (b : Brush) (row col : Nat) : Spelled f (Stroke.moveBytes b row col) := by
  unfold Stroke.moveBytes
  split
  · exact absoluteMove row col
  · split
    · exact nil
    · split
      · refine append ?_ (lineFeeds _)
        split
        · exact carriageReturn
        · exact nil
      · exact absoluteMove row col

theorem hideCursor : Spelled f Stroke.hideCursor :=
  @sequence f [0x3F, 0x32, 0x35] (by decide +kernel) 0x6C (by decide)

theorem showCursor : Spelled f Stroke.showCursor :=
  @sequence f [0x3F, 0x32, 0x35] (by decide +kernel) 0x68 (by decide)

theorem eraseLine : Spelled f Stroke.eraseLine := @sequence f [] (by decide +kernel) 0x4B (by decide)

theorem clearAll : Spelled f Stroke.clearAll := by
  have home : Spelled f [0x1B, 0x5B, 0x48] := @sequence f [] (by decide +kernel) 0x48 (by decide)
  have clear : Spelled f [0x1B, 0x5B, 0x32, 0x4A] := @sequence f [0x32] (by decide +kernel) 0x4A (by decide)
  exact ((sgr .plain).append home).append clear

end Spelled

/-! ### Strokes -/

/-- Whatever is believed, the bytes of the stroke are those of tokens that paint `f`. -/
def Stroke.Spells (f : Screen) (k : Stroke) : Prop := ∀ b, Spelled f (k b).1

namespace Stroke.Spells

variable {k k' : Stroke}

theorem nothing : Spells f .nothing := fun _ => .nil

theorem put {bytes : Bytes} (h : Spelled f bytes) : Spells f (.put bytes) := fun _ => h

theorem believe (g : Brush → Brush) : Spells f (.believe g) := fun _ => .nil

theorem andThen (h : Spells f k) (h' : Spells f k') : Spells f (k.andThen k') := fun b => (h b).append (h' (k b).2)

theorem all {strokes : List Stroke} (h : ∀ k ∈ strokes, Spells f k) : Spells f (.all strokes) := by
  induction strokes with
  | nil => exact nothing
  | cons k rest ih => exact andThen (h k (by simp)) (ih fun k' hk' => h k' (by simp [hk']))

theorem usePen (p : Pen) (force : Bool) : Spells f (.usePen p force) := by
  intro b
  unfold Stroke.usePen
  split
  · exact .sgr p
  · exact .nil

theorem move (row col : Nat) : Spells f (.move row col) := fun b => .moveBytes b row col

theorem silentMove (row col : Nat) : Spells f (.silentMove row col) := by
  intro b
  unfold Stroke.silentMove
  split
  · exact .nil
  · split
    · exact andThen (put .hideCursor) (move row col) _
    · exact move row col b

end Stroke.Spells

open Stroke (Spells)

private theorem paintCell_spells {y x : Nat} (hy : y < f.height) (hx : x < f.width)
    (hc : IsPrintable (f.cellAt y x).code) : Spells f (paintCell (f.cellAt y x)) := by
  exact .andThen (.usePen _ _) (.andThen (.put (.code hy hx hc)) (.andThen (.believe _) .nothing))

private theorem paintRow_spells (bce : Bool) {y : Nat} (hy : y < f.height)
    (hok : ∀ x, IsPrintable (f.cellAt y x).code) : Spells f (paintRow bce f y) := by
  have hcells : ∀ k ∈ ((rowCells f y).take (drawnLength bce f y)).map paintCell, Spells f k := by
    refine List.forall_mem_map.2 ?_
    intro c hc
    obtain ⟨x, hx, rfl⟩ := List.mem_map.1 (List.mem_of_mem_take hc)
    exact paintCell_spells hy (List.mem_range.1 hx) (hok x)
  have herasure : Spells f (if drawnLength bce f y < f.width then paintErasure bce f y else .nothing) := by
    split
    · exact .andThen (.usePen _ _) (.put .eraseLine)
    · exact .nothing
  exact .andThen (.silentMove y 0) (.andThen (.all hcells) (.andThen herasure (.andThen (.believe _) .nothing)))

private theorem paintCursor_spells (f : Screen) : Spells f (paintCursor f) := by
  have hvisible : Spells f fun b =>
      if b.visible ≠ f.visible then
        (if f.visible then Stroke.showCursor else Stroke.hideCursor, { b with visible := f.visible })
      else ([], b) := by
    intro b
    dsimp only
    split
    · cases f.visible with
      | true => exact .showCursor
      | false => exact .hideCursor
    · exact .nil
  exact .andThen (.move _ _) (.andThen hvisible (.andThen (.usePen _ _) .nothing))

private theorem opening_spells (update : Bool) (last : Screen) : Spells f (opening update last) := by
  unfold opening
  split
  · exact .andThen (.usePen _ _) (.believe _)
  · exact fun _ => .clearAll

/-- The bytes of a frame are those of tokens that paint its screen, if this shows nothing but printable code points. -/
theorem frame_spelled (bce initialized : Bool) (last : Screen) (hok : ∀ y x, IsPrintable (f.cellAt y x).code) :
    Spelled f (frame bce initialized last f) := by
  have hrows : ∀ k ∈ (List.range f.height).map fun row =>
      if canUpdate initialized last f && !rowDiffers last f row then Stroke.nothing else paintRow bce f row,
      Spells f k := by
    refine List.forall_mem_map.2 ?_
    intro y hy
    split
    · exact .nothing
    · exact paintRow_spells bce (List.mem_range.1 hy) (hok y)
  have hframe : Spells f (frameStroke bce initialized last f) :=
    .andThen (opening_spells _ last) (.andThen (.all hrows) (.andThen (paintCursor_spells f) .nothing))
  exact hframe { }

end Repaint

/-! ### Frames of emulators -/

open Repaint (Display IsPainted)

/-- A frame of an emulator that comes out of a run is the UTF-8 of tokens, with nothing before, between or after them:
carriage returns and line feeds, control sequences of the display itself, and contents of cells of the screen that it
shows, each of them a scalar value that is no C0 control.  This is so for every display, and whatever was shown
before. -/
theorem Emulator.Reached.frame_tokens {e : Emulator} (he : e.Reached) (d : Display) (initialized : Bool)
    (last : Screen) : ∃ tokens : List Token, (∀ t ∈ tokens, IsPainted e.screen t) ∧
      d.frame initialized last e.screen = encodeAll (streamOf tokens .nothing) ∧
      Decoder.start.run (d.frame initialized last e.screen) = (streamOf tokens .nothing, .start) := by
  have hcode := he.sound.holds.code_cellAt Utf8.isPrintable_space
  obtain ⟨tokens, htokens, hbytes⟩ := Repaint.frame_spelled d.bce initialized last hcode
  have hstream : streamOf tokens .nothing = tokens.flatMap Token.codes := List.append_nil _
  have hscalar : ∀ c ∈ tokens.flatMap Token.codes, IsScalar c := by
    intro c hc
    obtain ⟨t, ht, hc⟩ := List.mem_flatMap.1 hc
    exact (htokens t ht).isScalar c hc
  refine ⟨tokens, htokens, ?_, ?_⟩
  · rw [hstream]
    exact hbytes
  · rw [hstream, Display.frame, hbytes]
    exact Utf8.run_encodeAll hscalar

/-- A control sequence and a BEL of a stream are not sent, and the letter after them is. -/
theorem Emulator.frame_tokens_one_letter :
    let e := left (Emulator.take [0x1B, 0x5B, 0x35, 0x6E, 0x07, 0x61]) { screen := .empty 2 1 }
    e.Reached ∧ e.screen.text = [0x61, 0x20] ∧
      ∃ tokens : List Token, (∀ t ∈ tokens, IsPainted e.screen t) ∧
        Display.standard.frame true (.empty 2 1) e.screen = encodeAll (streamOf tokens .nothing) ∧
        Decoder.start.run (Display.standard.frame true (.empty 2 1) e.screen) = (streamOf tokens .nothing, .start) := by
  intro e
  have hcreate : Emulator.Reached { screen := .empty 2 1 } := @Emulator.Reached.create _ 2 1 rfl
  have he : e.Reached := hcreate.take _
  exact ⟨he, by decide +kernel, Emulator.Reached.frame_tokens he .standard true (.empty 2 1)⟩

/-- The C1 control that opens a control sequence on other terminals is a character here, and is sent as one. -/
theorem Emulator.frame_sends_c1 :
    let e := left (Emulator.take [0xC2, 0x9B]) { screen := .empty 2 1 }
    e.Reached ∧ Decoder.start.run (Display.standard.frame false (.empty 2 1) e.screen) =
      ([0x1B, 0x5B, 0x30, 0x6D, 0x1B, 0x5B, 0x48, 0x1B, 0x5B, 0x32, 0x4A, 0x9B, 0x1B, 0x5B, 0x4B], .start) := by
  intro e
  have hcreate : Emulator.Reached { screen := .empty 2 1 } := @Emulator.Reached.create _ 2 1 rfl
  have he : e.Reached := hcreate.take _
  exact ⟨he, by decide +kernel⟩

end ScreenWatch
