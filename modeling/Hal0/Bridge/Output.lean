import Mathlib.Data.List.Chain

/-!
# A run's output, read in windows

The ledger keeps a run's whole output, and a reader pages it: one window at a
time, each from a byte offset, with the offset of the next.  Offsets count
UTF-8 bytes, and a window never splits a character: the start of a window
moves forward over continuation bytes and its end moves backward over them.

A text is a `String`, hence a sequence of Unicode scalar values, and the bytes
are those of its encoding.
-/

namespace Hal0.Bridge

open Nat
open List

/-- `OUTPUT_WINDOW_BYTES` -/
def outputWindowBytes : Int := 16 * 1024

/-- `_continuation`: not the start of a character. -/
def continuation (byte : UInt8) : Bool :=
  byte &&& 0xC0 == 0x80

/-- The start of a window, moved forward to the next character. -/
def windowStart (raw : ByteArray) (start : Nat) : Nat :=
  if inside : start < raw.size then
    if continuation raw[start] then windowStart raw (start + 1) else start
  else
    start
termination_by raw.size - start

/--
The end of a window, moved backward to a boundary.  The first byte of an
encoded text starts a character, hence the loop never passes it.
-/
def windowEnd (raw : ByteArray) : Nat → Nat
  | 0 => 0
  | before + 1 =>
    if inside : before + 1 < raw.size then
      if continuation raw[before + 1] then
        windowEnd raw before
      else
        before + 1
    else
      before + 1

/-- The numbers beside a window of the output. -/
structure OutputPage where
  outputOffset : Nat
  outputTotal : Nat
  nextOffset : Option Nat
deriving DecidableEq

/-- `output_window`.  It fails where the bytes of the window do not decode. -/
def outputWindow (text : String) (offset : Int := 0)
    (size : Int := outputWindowBytes) : Option (String × OutputPage) :=
  let raw := text.toUTF8
  let total := raw.size
  let start := windowStart raw (min (max offset 0) total).toNat
  let stop := windowEnd raw (min (start + max size 4) total).toNat
  (String.fromUTF8? (raw.extract start stop)).map fun window =>
    (window,
      { outputOffset := start
        outputTotal := total
        nextOffset := if stop < total then some stop else none })

/--
Read on from an offset by following the offsets of the next windows, for at
most `reads` windows.
-/
def readOn (text : String) (size : Int) :
    Nat → Nat → Option (List (String × OutputPage))
  | 0, _ => none
  | reads + 1, offset =>
    match outputWindow text offset size with
    | none => none
    | some (window, page) =>
      match page.nextOffset with
      | none => some [(window, page)]
      | some next =>
        (readOn text size reads next).map ((window, page) :: ·)

/-! ## Bytes which start a character -/

theorem continuation_ofNat {value : Nat} (small : value < 0x40) :
    continuation (UInt8.ofNat value + 0x80) = true := by
  revert value
  decide

theorem not_continuation_of_first {byte : UInt8}
    (first : byte.IsUTF8FirstByte) : continuation byte = false := by
  have masked (mask lead : UInt8) (covers : mask &&& 0xC0 = 0xC0)
      (leads : lead &&& 0xC0 ≠ 0x80) (isLead : byte &&& mask = lead) :
      continuation byte = false := by
    rw [continuation, beq_eq_false_iff_ne]
    intro isTail
    refine leads ?_
    rw [← isLead, UInt8.and_assoc, covers, isTail]
  rcases first with first | first | first | first
  · rw [continuation, beq_eq_false_iff_ne]
    intro isTail
    have high : byte &&& 0x80 = 0x80 :=
      calc byte &&& 0x80 = (byte &&& 0xC0) &&& 0x80 := by
            rw [UInt8.and_assoc]
            rfl
        _ = 0x80 := by
            rw [isTail]
            rfl
    rw [first] at high
    exact absurd high (by decide)
  · exact masked _ _ (by decide) (by decide) first
  · exact masked _ _ (by decide) (by decide) first
  · exact masked _ _ (by decide) (by decide) first

theorem continuation_tail (character : Char) :
    ∀ byte ∈ (String.utf8EncodeChar character).tail,
      continuation byte = true := by
  have small (value : Nat) :
      continuation (UInt8.ofNat (value % 64) + 0x80) = true :=
    continuation_ofNat (mod_lt _ (by decide))
  unfold String.utf8EncodeChar
  dsimp only
  split_ifs <;> simp [small]

theorem first_or_continuation (character : Char) :
    ∀ byte ∈ String.utf8EncodeChar character,
      byte.IsUTF8FirstByte ∨ continuation byte = true := by
  intro byte mem
  cases bytes : String.utf8EncodeChar character with
  | nil => rw [bytes] at mem; cases mem
  | cons head rest =>
    have someByte : 0 < (String.utf8EncodeChar character).length := by
      simp [character.utf8Size_pos]
    have isFirst : ((String.utf8EncodeChar character).get
        ⟨0, someByte⟩).IsUTF8FirstByte :=
      UInt8.isUTF8FirstByte_getElem_utf8EncodeChar.mpr rfl
    simp only [bytes, get_eq_getElem, getElem_cons_zero]
      at isFirst
    rw [bytes, mem_cons] at mem
    rcases mem with rfl | mem
    · exact Or.inl isFirst
    · exact Or.inr (continuation_tail character byte (by rwa [bytes]))

variable {offset : Nat}

theorem first_or_continuation_text (text : String)
    (inside : offset < text.toByteArray.size) :
    text.toByteArray[offset].IsUTF8FirstByte ∨
      continuation text.toByteArray[offset] = true := by
  have encoded : text.toByteArray =
      (text.toList.flatMap String.utf8EncodeChar).toByteArray := by
    rw [← String.utf8Encode_toList]
    rfl
  have mem : text.toByteArray[offset] ∈
      text.toList.flatMap String.utf8EncodeChar := by
    simp only [encoded, getElem_toByteArray]
    exact getElem_mem _
  obtain ⟨character, _, mem⟩ := mem_flatMap.mp mem
  exact first_or_continuation character _ mem

/-! ## Boundaries of a text -/

/-- An offset at which a character of the text starts, or its end. -/
def IsBoundary (text : String) (offset : Nat) : Prop :=
  ∃ before after : String,
    text = before ++ after ∧ before.utf8ByteSize = offset

/-- No character goes on at the offset. -/
def Stops (raw : ByteArray) (offset : Nat) : Prop :=
  ∀ inside : offset < raw.size, continuation raw[offset] = false

theorem isBoundary_iff_isValid (text : String) (offset : Nat) :
    IsBoundary text offset ↔ String.Pos.Raw.IsValid text ⟨offset⟩ := by
  rw [String.Pos.Raw.isValid_iff_exists_append]
  constructor
  · rintro ⟨before, after, parts, offsetEq⟩
    exact ⟨before, after, parts, by rw [← offsetEq]; rfl⟩
  · rintro ⟨before, after, parts, offsetEq⟩
    exact ⟨before, after, parts,
      (congrArg String.Pos.Raw.byteIdx offsetEq).symm⟩

variable {text : String}

/-- Boundaries are where no character goes on. -/
theorem isBoundary_iff_stops :
    IsBoundary text offset ↔
      offset ≤ text.utf8ByteSize ∧ Stops text.toByteArray offset := by
  rw [isBoundary_iff_isValid, String.Pos.Raw.isValid_iff_isUTF8FirstByte]
  constructor
  · rintro (isEnd | ⟨inside, first⟩)
    · have isTotal : offset = text.utf8ByteSize :=
        congrArg String.Pos.Raw.byteIdx isEnd
      exact ⟨isTotal.le, fun inside =>
        absurd inside (by simp [isTotal])⟩
    · exact ⟨le_of_lt inside, fun _ => not_continuation_of_first first⟩
  · rintro ⟨bounded, stops⟩
    rcases lt_or_eq_of_le bounded with inside | isTotal
    · refine Or.inr ⟨inside, ?_⟩
      have inBytes : offset < text.toByteArray.size := by simpa using inside
      rcases first_or_continuation_text text inBytes with first | tail
      · exact first
      · rw [stops inBytes] at tail
        cases tail
    · exact Or.inl (congrArg String.Pos.Raw.mk isTotal)

theorem isBoundary_zero (text : String) : IsBoundary text 0 :=
  ⟨"", text, by simp, by simp⟩

/-- The next boundary is at most four bytes on. -/
theorem IsBoundary.next (boundary : IsBoundary text offset)
    (inside : offset < text.utf8ByteSize) :
    ∃ next, IsBoundary text next ∧ offset < next ∧ next ≤ offset + 4 := by
  obtain ⟨before, after, parts, offsetEq⟩ := boundary
  cases characters : after.toList with
  | nil =>
    have isEmpty : after = "" := String.toList_eq_nil_iff.mp characters
    rw [parts, isEmpty, String.append_empty, offsetEq] at inside
    exact absurd inside (lt_irrefl _)
  | cons character later =>
    have afterEq :
        after = String.singleton character ++ String.ofList later := by
      rw [← String.toList_inj]
      simp [characters]
    refine ⟨(before ++ String.singleton character).utf8ByteSize,
      ⟨_, String.ofList later, ?_, rfl⟩, ?_, ?_⟩
    · rw [parts, afterEq, String.append_assoc]
    · have positive := character.utf8Size_pos
      simp only [String.utf8ByteSize_append, String.utf8ByteSize_singleton]
      omega
    · have bounded := character.utf8Size_le_four
      simp only [String.utf8ByteSize_append, String.utf8ByteSize_singleton]
      omega

/-! ## The two loops -/

/-- The first stop from the offset on. -/
theorem windowStart_spec (raw : ByteArray) {start : Nat}
    (bounded : start ≤ raw.size) :
    start ≤ windowStart raw start ∧ windowStart raw start ≤ raw.size ∧
      Stops raw (windowStart raw start) ∧
      ∀ offset, start ≤ offset → Stops raw offset →
        windowStart raw start ≤ offset := by
  fun_induction windowStart raw start with
  | case1 start inside isTail ih =>
    obtain ⟨reaches, total, stops, least⟩ := ih inside
    refine ⟨by omega, total, stops, fun offset later stopsThere => ?_⟩
    rcases eq_or_lt_of_le later with rfl | later
    · rw [stopsThere inside] at isTail
      cases isTail
    · exact least offset later stopsThere
  | case2 start inside isHead =>
    exact ⟨le_rfl, bounded, fun _ => by simpa using isHead,
      fun _ later _ => later⟩
  | case3 start outside =>
    exact ⟨le_rfl, bounded, fun inside => absurd inside outside,
      fun _ later _ => later⟩

/-- The last stop up to the offset. -/
theorem windowEnd_spec (raw : ByteArray) (stopsAtZero : Stops raw 0)
    (stop : Nat) :
    windowEnd raw stop ≤ stop ∧ Stops raw (windowEnd raw stop) ∧
      ∀ offset, offset ≤ stop → Stops raw offset →
        offset ≤ windowEnd raw stop := by
  fun_induction windowEnd raw stop with
  | case1 => exact ⟨le_rfl, stopsAtZero, fun _ earlier _ => earlier⟩
  | case2 before inside isTail ih =>
    obtain ⟨bounded, stops, greatest⟩ := ih
    refine ⟨by omega, stops, fun offset earlier stopsThere => ?_⟩
    rcases eq_or_lt_of_le earlier with rfl | earlier
    · rw [stopsThere inside] at isTail
      cases isTail
    · exact greatest offset (le_of_lt_succ earlier) stopsThere
  | case3 before inside isHead =>
    exact ⟨le_rfl, fun _ => by simpa using isHead,
      fun _ earlier _ => earlier⟩
  | case4 before outside =>
    exact ⟨le_rfl, fun inside => absurd inside outside,
      fun _ earlier _ => earlier⟩

/-! ## One window -/

/-- The offset brought into the text. -/
def clamped (text : String) (offset : Int) : Nat :=
  (min (max offset 0) text.utf8ByteSize).toNat

theorem clamped_le (text : String) (offset : Int) :
    clamped text offset ≤ text.utf8ByteSize := by
  unfold clamped
  omega

@[simp]
theorem clamped_natCast (bounded : offset ≤ text.utf8ByteSize) :
    clamped text offset = offset := by
  unfold clamped
  omega

theorem decode_between {start stop : Nat} (starts : IsBoundary text start)
    (stops : IsBoundary text stop) (ordered : start ≤ stop) :
    ∃ window : String,
      String.fromUTF8? (text.toByteArray.extract start stop) = some window ∧
        window.toByteArray = text.toByteArray.extract start stop := by
  have bounded := (isBoundary_iff_stops.mp stops).1
  have valid : (text.toByteArray.extract start stop).IsValidUTF8 :=
    (String.Pos.Raw.isValidUTF8_extract_iff ⟨start⟩ ⟨stop⟩ ordered
      bounded).mpr (Or.inr ⟨(isBoundary_iff_isValid text start).mp starts,
        (isBoundary_iff_isValid text stop).mp stops⟩)
  exact ⟨String.fromUTF8 _ valid, dif_pos valid, rfl⟩

/--
A window runs from the first boundary at or after the clamped offset to a
later boundary, unless it starts at the end of the text.
-/
theorem outputWindow_between (text : String) (offset size : Int) :
    ∃ (window : String) (start stop : Nat),
      outputWindow text offset size = some (window,
        { outputOffset := start
          outputTotal := text.utf8ByteSize
          nextOffset :=
            if stop < text.utf8ByteSize then some stop else none }) ∧
      window.toByteArray = text.toByteArray.extract start stop ∧
      IsBoundary text start ∧ IsBoundary text stop ∧
      clamped text offset ≤ start ∧
      (∀ boundary, IsBoundary text boundary →
        clamped text offset ≤ boundary → start ≤ boundary) ∧
      start ≤ stop ∧ (start < text.utf8ByteSize → start < stop) := by
  have sizes : text.toByteArray.size = text.utf8ByteSize := by simp
  have zero := (isBoundary_iff_stops.mp (isBoundary_zero text)).2
  have inBytes : clamped text offset ≤ text.toByteArray.size := by
    rw [sizes]
    exact clamped_le text offset
  obtain ⟨reaches, total, stopsStart, least⟩ :=
    windowStart_spec text.toByteArray inBytes
  generalize startEq :
    windowStart text.toByteArray (clamped text offset) = start at *
  rw [sizes] at total
  have starts : IsBoundary text start :=
    isBoundary_iff_stops.mpr ⟨total, stopsStart⟩
  obtain ⟨bounded, stopsEnd, greatest⟩ := windowEnd_spec text.toByteArray zero
    (min (start + max size 4) text.utf8ByteSize).toNat
  generalize stopEq : windowEnd text.toByteArray
    (min (start + max size 4) text.utf8ByteSize).toNat = stop at *
  have stops : IsBoundary text stop :=
    isBoundary_iff_stops.mpr ⟨by omega, stopsEnd⟩
  have further : start < text.utf8ByteSize → start < stop := by
    intro inside
    obtain ⟨next, isNext, after, near⟩ := starts.next inside
    obtain ⟨nextBounded, nextStops⟩ := isBoundary_iff_stops.mp isNext
    have inReach := greatest next (by omega) nextStops
    omega
  have ordered : start ≤ stop := greatest start (by omega) stopsStart
  obtain ⟨window, decoded, bytes⟩ := decode_between starts stops ordered
  refine ⟨window, start, stop, ?_, bytes, starts, stops, reaches, ?_,
    ordered, further⟩
  · rw [clamped] at startEq
    simp only [outputWindow, String.toUTF8_eq_toByteArray, sizes, startEq,
      stopEq, decoded, Option.map_some]
  · intro boundary isBoundary later
    exact least boundary later (isBoundary_iff_stops.mp isBoundary).2

/-- What a window and its paging fields say of the text. -/
structure IsWindow (text : String) (offset : Int) (window : String)
    (page : OutputPage) : Prop where
  parts : ∃ before after : String,
    text = before ++ window ++ after ∧
      page.outputOffset = before.utf8ByteSize ∧
      page.nextOffset =
        if after = "" then none else some (before ++ window).utf8ByteSize
  total : page.outputTotal = text.utf8ByteSize
  reaches : clamped text offset ≤ page.outputOffset
  first : ∀ boundary, IsBoundary text boundary →
    clamped text offset ≤ boundary → page.outputOffset ≤ boundary

theorem extract_front (before after : String) :
    (before ++ after).toByteArray.extract 0 before.utf8ByteSize =
      before.toByteArray := by
  rw [String.toByteArray_append]
  exact ByteArray.extract_append_eq_left (by simp)

/-- A window is never refused. -/
theorem outputWindow_isWindow (text : String) (offset size : Int) :
    ∃ window page, outputWindow text offset size = some (window, page) ∧
      IsWindow text offset window page := by
  obtain ⟨window, start, stop, isWindow, bytes, starts, stops, reaches, first,
    ordered, _⟩ := outputWindow_between text offset size
  refine ⟨window, _, isWindow, ?_, rfl, reaches, first⟩
  obtain ⟨before, rest, parts, rfl⟩ := starts
  obtain ⟨upTo, after, parts', rfl⟩ := stops
  have joined : upTo = before ++ window := by
    rw [← String.toByteArray_inj, String.toByteArray_append, bytes,
      ← extract_front upTo after, ← extract_front before rest, ← parts,
      ← parts']
    exact ByteArray.extract_eq_extract_append_extract _ (zero_le _)
      ordered
  refine ⟨before, after, by rw [parts', joined], rfl, ?_⟩
  have total : text.utf8ByteSize = upTo.utf8ByteSize + after.utf8ByteSize := by
    rw [parts', String.utf8ByteSize_append]
  have atEnd : after = "" ↔ after.utf8ByteSize = 0 :=
    String.utf8ByteSize_eq_zero_iff.symm
  dsimp only
  rw [← joined]
  by_cases isEmpty : after = ""
  · rw [if_pos isEmpty, if_neg (by rw [atEnd] at isEmpty; omega)]
  · rw [if_neg isEmpty, if_pos (by rw [atEnd] at isEmpty; omega)]

/-! ## Reading on -/

/--
What is read on from a boundary is the rest of the text, in windows whose
offsets increase, and the last of them has no next.
-/
theorem readOn_from (text : String) (size : Int) {reads : Nat}
    (boundary : IsBoundary text offset)
    (enough : text.utf8ByteSize < offset + reads) :
    ∃ pages, readOn text size reads offset = some pages ∧
      (String.join (pages.map Prod.fst)).toByteArray =
        text.toByteArray.extract offset text.utf8ByteSize ∧
      (pages.map fun page => page.2.outputOffset).Pairwise (· < ·) ∧
      (∀ page ∈ pages, offset ≤ page.2.outputOffset) ∧
      (pages.head?.map fun page => page.2.outputOffset) = some offset ∧
      (pages.getLast?.map fun page => page.2.nextOffset) = some none := by
  induction reads generalizing offset with
  | zero =>
    exact absurd (isBoundary_iff_stops.mp boundary).1 (by omega)
  | succ reads ih =>
    have bounded := (isBoundary_iff_stops.mp boundary).1
    obtain ⟨window, start, stop, isWindow, bytes, starts, stops, reaches,
      first, ordered, further⟩ := outputWindow_between text offset size
    rw [clamped_natCast bounded] at reaches first
    obtain rfl : start = offset :=
      le_antisymm (first offset boundary le_rfl) reaches
    have stopBounded := (isBoundary_iff_stops.mp stops).1
    rw [readOn, isWindow]
    dsimp only
    by_cases goesOn : stop < text.utf8ByteSize
    · obtain ⟨pages, isRest, joined, increasing, later, _, ends⟩ :=
        ih stops (by omega)
      have after := further (by omega)
      rw [if_pos goesOn]
      dsimp only
      rw [isRest]
      refine ⟨_, rfl, ?_, ?_, ?_, rfl, ?_⟩
      · rw [map_cons, String.join_cons, String.toByteArray_append,
          joined, bytes]
        exact (ByteArray.extract_eq_extract_append_extract _ ordered
          stopBounded).symm
      · rw [map_cons, pairwise_cons]
        refine ⟨fun other mem => ?_, increasing⟩
        obtain ⟨page, listed, rfl⟩ := mem_map.mp mem
        exact lt_of_lt_of_le after (later page listed)
      · intro page mem
        rcases mem_cons.mp mem with rfl | listed
        · exact le_rfl
        · exact ordered.trans (later page listed)
      · cases isLast : pages.getLast? with
        | none => rw [isLast] at ends; cases ends
        | some last =>
          rw [isLast] at ends
          rw [getLast?_cons, isLast]
          exact ends
    · rw [if_neg goesOn]
      refine ⟨_, rfl, ?_, ?_, ?_, rfl, ?_⟩
      · have isTotal : stop = text.utf8ByteSize := by omega
        simp [bytes, isTotal]
      · simp
      · simp
      · rfl

/-- The pages of a whole output. -/
structure IsPaging (text : String) (pages : List (String × OutputPage)) :
    Prop where
  lossless : String.join (pages.map Prod.fst) = text
  starts : (pages.head?.map fun page => page.2.outputOffset) = some 0
  increasing : (pages.map fun page => page.2.outputOffset).Pairwise (· < ·)
  ends : (pages.getLast?.map fun page => page.2.nextOffset) = some none

/--
Following the offsets from the beginning reads the whole text, and ends; and
from any offset whatever, a window starts at the first character from there
on and splits none.
-/
theorem output_pages (text : String) (size : Int) :
    (∃ reads pages, readOn text size reads 0 = some pages ∧
      IsPaging text pages) ∧
    ∀ offset : Int, ∃ window page,
      outputWindow text offset size = some (window, page) ∧
        IsWindow text offset window page := by
  constructor
  · have enough : text.utf8ByteSize < 0 + (text.utf8ByteSize + 1) := by omega
    obtain ⟨pages, isPages, joined, increasing, _, starts, ends⟩ :=
      readOn_from text size (isBoundary_zero text) enough
    refine ⟨_, pages, isPages, ?_, starts, increasing, ends⟩
    rw [← String.toByteArray_inj, joined, ← String.size_toByteArray]
    exact ByteArray.extract_zero_size
  · exact fun offset => outputWindow_isWindow text offset size

end Hal0.Bridge
