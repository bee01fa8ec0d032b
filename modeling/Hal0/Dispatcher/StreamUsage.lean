import Hal0.Core.Framing
import Hal0.Toolloop.Engine

/-!
# Taking the usage chunk out of a stream

`strip_usage_only_chunk` buffers the bytes of a stream up to the ends of its
events and relays all but the events which hold a usage and no choices.  The
chunks are transport reads, so they can end anywhere, within a terminator too.

The payload of each event is read as JSON, and one which nests too deep raises
an error that nothing catches.  The stream then ends, and the events of the
same read which were kept before it are lost with it.
-/

namespace Hal0.Dispatcher.StreamUsage

open List
open Hal0.Framing
open Hal0.Slots.ConfigFiles (isSpace stripped)
open Hal0.Toolloop (Json Loaded get)

/-! ## The model -/

abbrev Bytes := List UInt8

/-- `_EVENT_END`: CRLF, LF or CR twice. -/
def eventEnds : List Bytes :=
  [[13, 10, 13, 10], [10, 10], [13, 13]]

/-- `bytes.decode` with replacements, and `json.loads`. -/
structure Codec where
  decode : Bytes → String
  loads : String → Loaded

/-- `parsed.get("choices") == []` and a usage which is a dictionary. -/
def isUsageOnly : Json → Bool
  | .obj parsed =>
    match get parsed "choices", get parsed "usage" with
    | .arr [], .obj _ => true
    | _, _ => false
  | _ => false

/-- `_is_usage_only_event`; `none` is the error of a text nested too deep. -/
def isUsageOnlyEvent (codec : Codec) (event : Bytes) : Option Bool :=
  let text := stripped (codec.decode event)
  if !("data:".toList.isPrefixOf text) then some false
  else
    let data := stripped (String.ofList (text.drop "data:".length))
    if !("\x7b".toList.isPrefixOf data) then some false
    else
      match codec.loads (String.ofList data) with
      | .value parsed => some (isUsageOnly parsed)
      | .invalid => some false
      | .tooDeep => none

theorem eventEnds_nonempty : [] ∉ eventEnds := by
  decide

/--
The events of a buffer which are relayed, and what is left in it; `none` is
the error of an event.
-/
def drain (codec : Codec) (buffer : Bytes) : Option (Bytes × Bytes) :=
  match _ : search eventEnds buffer with
  | none => some ([], buffer)
  | some (event, rest) =>
    match isUsageOnlyEvent codec event with
    | none => none
    | some isUsage => (drain codec rest).map fun later =>
      (if isUsage then later.1 else event ++ later.1, later.2)
termination_by buffer.length
decreasing_by exact search_shorter eventEnds_nonempty ‹_›

/-- A chunk of the stream, or what is no bytes. -/
inductive Chunk (α : Type) where
  | bytes (data : Bytes)
  | other (value : α)

/-- `if data: yield data` -/
def yielded {α : Type} (data : Bytes) : List (Chunk α) :=
  if data.isEmpty then [] else [.bytes data]

/-- What a generator yields, and whether it ends by an error. -/
structure Relayed (α : Type) where
  chunks : List (Chunk α)
  raised : Bool

/-- More chunks before these. -/
def Relayed.after {α : Type} (first : List (Chunk α))
    (relayed : Relayed α) : Relayed α :=
  { relayed with chunks := first ++ relayed.chunks }

/-- `strip_usage_only_chunk`, with what it has buffered. -/
def relay {α : Type} (codec : Codec) :
    Bytes → List (Chunk α) → Relayed α
  | buffer, [] => ⟨yielded buffer, false⟩
  | buffer, .other value :: rest =>
    (relay codec buffer rest).after [.other value]
  | buffer, .bytes chunk :: rest =>
    match drain codec (buffer ++ chunk) with
    -- What was kept of this chunk is still in `out`.
    | none => ⟨[], true⟩
    | some (out, left) => (relay codec left rest).after (yielded out)

/-- `strip_usage_only_chunk` -/
def stripUsageOnlyChunk {α : Type} (codec : Codec)
    (source : List (Chunk α)) : Relayed α :=
  relay codec [] source

/-! ## What is expected of it -/

/-- The bytes among the chunks, put together. -/
def bytesOf {α : Type} (chunks : List (Chunk α)) : Bytes :=
  chunks.flatMap fun chunk =>
    match chunk with
    | .bytes data => data
    | .other _ => []

/-- The bytes which are yielded for the reads of a stream. -/
def strippedBytes (codec : Codec) (reads : List Bytes) : Bytes :=
  bytesOf (stripUsageOnlyChunk (α := Empty) codec (reads.map .bytes)).chunks

/-- The events which are not usage-only, in their order. -/
def kept (codec : Codec) (events : List Bytes) : Bytes :=
  (events.filter fun event =>
    isUsageOnlyEvent codec event ≠ some true).flatten

/--
The events of the stream are one cut of it, and what is yielded is the stream
without those which hold just a usage, however it was read.
-/
structure Stripped (codec : Codec) (reads : List Bytes) : Prop where
  precise : ∃ events rest, Cut eventEnds reads.flatten events rest ∧
    (∀ others left, Cut eventEnds reads.flatten others left →
      others = events ∧ left = rest) ∧
    strippedBytes codec reads = kept codec events ++ rest
  independent : ∀ others : List Bytes, others.flatten = reads.flatten →
    strippedBytes codec others = strippedBytes codec reads

/-- No event of the list nests too deep to be read. -/
def Shallow (codec : Codec) (events : List Bytes) : Prop :=
  ∀ event ∈ events, isUsageOnlyEvent codec event ≠ none

/-! ## Events -/

theorem eventEnds_prompt : Prompt eventEnds where
  nonempty := eventEnds_nonempty
  apart := by
    intro first isFirst terminator isIn
    have apart : ∀ first ∈ eventEnds, ∀ terminator ∈ eventEnds,
        ¬ terminator <:+: first.dropLast := by
      decide
    exact apart first isFirst terminator isIn

variable {codec : Codec} {event buffer rest : Bytes} {events : List Bytes}

theorem kept_cons (codec : Codec) (event : Bytes) (events : List Bytes) :
    kept codec (event :: events) =
      (if isUsageOnlyEvent codec event = some true then []
        else event) ++ kept codec events := by
  by_cases isUsage : isUsageOnlyEvent codec event = some true
  · simp [kept, isUsage]
  · simp [kept, isUsage]

theorem kept_append (codec : Codec) (first second : List Bytes) :
    kept codec (first ++ second) = kept codec first ++ kept codec second := by
  rw [kept, filter_append, flatten_append]
  rfl

/-- An event which cannot be read is one of those to be kept. -/
theorem kept_ne_nil (framed : ∀ event ∈ events, Frame eventEnds event)
    (deep : ¬ Shallow codec events) : kept codec events ≠ [] := by
  obtain ⟨event, isEvent, unread⟩ : ∃ event ∈ events,
      isUsageOnlyEvent codec event = none := by
    simpa [Shallow] using deep
  have isKept : event ∈ events.filter fun event =>
      isUsageOnlyEvent codec event ≠ some true := by
    rw [mem_filter]
    exact ⟨isEvent, by simp [unread]⟩
  intro isNil
  have isEmpty : event = [] := flatten_eq_nil_iff.mp isNil event isKept
  subst isEmpty
  obtain ⟨terminator, isIn, ends⟩ := (framed [] isEvent).ends
  rw [suffix_nil] at ends
  subst ends
  exact eventEnds_nonempty isIn

theorem drain_cons (isFrame : Frame eventEnds event) :
    drain codec (event ++ buffer) =
      (isUsageOnlyEvent codec event).bind fun isUsage =>
        (drain codec buffer).map fun later =>
          (if isUsage then later.1 else event ++ later.1, later.2) := by
  rw [drain]
  split
  · next notFound =>
      have open_ := open_of_search eventEnds_prompt notFound
      exact (open_.no_frame isFrame).elim
  · next first later found =>
      obtain ⟨same, isFirst⟩ := frame_of_search eventEnds_prompt found
      have isEvent := Frame.unique isFrame isFirst same
      subst isEvent
      rw [append_cancel_left same]
      cases isUsageOnlyEvent codec event <;> rfl

theorem drain_open (isOpen : Open eventEnds buffer) :
    drain codec buffer = some ([], buffer) := by
  rw [drain]
  split
  · rfl
  · next event later found =>
      obtain ⟨same, isFrame⟩ := frame_of_search eventEnds_prompt found
      rw [same] at isOpen
      exact (isOpen.no_frame isFrame).elim

theorem drain_events (framed : ∀ event ∈ events, Frame eventEnds event)
    (isOpen : Open eventEnds rest) (shallow : Shallow codec events) :
    drain codec (events.flatten ++ rest) = some (kept codec events, rest) := by
  induction events with
  | nil => exact drain_open isOpen
  | cons event events ih =>
    have later := ih (fun other isIn => framed other (mem_cons_of_mem _ isIn))
      fun other isIn => shallow other (mem_cons_of_mem _ isIn)
    rw [flatten_cons, append_assoc, drain_cons (framed event mem_cons_self),
      later, kept_cons]
    cases reads : isUsageOnlyEvent codec event with
    | none => exact (shallow event mem_cons_self reads).elim
    | some isUsage => cases isUsage <;> rfl

/-- One event which cannot be read, and the whole buffer is not relayed. -/
theorem drain_deep (framed : ∀ event ∈ events, Frame eventEnds event)
    (deep : ¬ Shallow codec events) :
    drain codec (events.flatten ++ rest) = none := by
  induction events with
  | nil => exact (deep nofun).elim
  | cons event events ih =>
    rw [flatten_cons, append_assoc, drain_cons (framed event mem_cons_self)]
    cases reads : isUsageOnlyEvent codec event with
    | none => rfl
    | some isUsage =>
      have later : ¬ Shallow codec events := by
        intro shallow
        apply deep
        intro other isIn
        rcases mem_cons.mp isIn with rfl | isLater
        · simp [reads]
        · exact shallow other isLater
      rw [ih (fun other isIn => framed other (mem_cons_of_mem _ isIn)) later]
      rfl

theorem bytesOf_append {α : Type} (first second : List (Chunk α)) :
    bytesOf (first ++ second) = bytesOf first ++ bytesOf second :=
  flatMap_append

theorem bytesOf_yielded {α : Type} (data : Bytes) :
    bytesOf (yielded data : List (Chunk α)) = data := by
  cases data with
  | nil => rfl
  | cons byte data => exact append_nil _

/-! ## The relay -/

theorem open_nil : Open eventEnds [] := by
  intro terminator isIn isInfix
  rw [infix_nil] at isInfix
  subst isInfix
  exact eventEnds_nonempty isIn

/-- What a read makes of a stream, by the cut of what is in the buffer then. -/
theorem relay_cons {chunk left : Bytes} {source : List (Chunk Empty)}
    (cut : Cut eventEnds (buffer ++ chunk) events left)
    (shallow : Shallow codec events) :
    bytesOf (relay codec buffer (.bytes chunk :: source)).chunks =
      kept codec events ++ bytesOf (relay codec left source).chunks := by
  rw [relay, cut.whole, drain_events cut.framed cut.left shallow]
  exact (bytesOf_append _ _).trans (congrArg (· ++ _) (bytesOf_yielded _))

/-- What was kept of a read is lost where one of its events cannot be read. -/
theorem relay_deep {chunk left : Bytes} {source : List (Chunk Empty)}
    (cut : Cut eventEnds (buffer ++ chunk) events left)
    (deep : ¬ Shallow codec events) :
    relay codec buffer (.bytes chunk :: source) = ⟨[], true⟩ := by
  rw [relay, cut.whole, drain_deep cut.framed deep]

/-- What is yielded depends on the cut into events. -/
theorem bytesOf_relay {reads : List Bytes} (isOpen : Open eventEnds buffer)
    (cut : Cut eventEnds (buffer ++ reads.flatten) events rest)
    (shallow : Shallow codec events) :
    bytesOf (relay (α := Empty) codec buffer (reads.map .bytes)).chunks =
      kept codec events ++ rest := by
  induction reads generalizing buffer events with
  | nil =>
    rw [flatten_nil, append_nil] at cut
    obtain ⟨rfl, rfl⟩ := cut.unique (Cut.nil isOpen)
    exact bytesOf_yielded rest
  | cons chunk reads ih =>
    rw [flatten_cons, ← append_assoc] at cut
    obtain ⟨first, left, later, rfl, isFirst, isLater⟩ :=
      cut.split eventEnds_prompt
    rw [map_cons, relay_cons isFirst fun event isIn =>
        shallow event (mem_append_left _ isIn),
      ih isFirst.left isLater fun event isIn =>
        shallow event (mem_append_right _ isIn),
      kept_append, append_assoc]

/-- Bytes are lost where an event cannot be read, however the stream is read. -/
theorem relay_shorter {reads : List Bytes}
    (cut : Cut eventEnds (buffer ++ reads.flatten) events rest)
    (isOpen : Open eventEnds buffer) (deep : ¬ Shallow codec events) :
    (bytesOf (relay (α := Empty) codec buffer
      (reads.map .bytes)).chunks).length <
        (kept codec events ++ rest).length := by
  induction reads generalizing buffer events with
  | nil =>
    rw [flatten_nil, append_nil] at cut
    obtain ⟨rfl, rfl⟩ := cut.unique (Cut.nil isOpen)
    exact (deep nofun).elim
  | cons chunk reads ih =>
    rw [flatten_cons, ← append_assoc] at cut
    obtain ⟨first, left, later, rfl, isFirst, isLater⟩ :=
      cut.split eventEnds_prompt
    by_cases shallow : Shallow codec first
    · have laterDeep : ¬ Shallow codec later := by
        intro laterShallow
        apply deep
        intro event isIn
        rcases mem_append.mp isIn with isEarly | isLate
        · exact shallow event isEarly
        · exact laterShallow event isLate
      have shorter := ih isLater isFirst.left laterDeep
      rw [map_cons, relay_cons isFirst shallow, kept_append, append_assoc,
        length_append, length_append]
      exact Nat.add_lt_add_left shorter _
    · have nothing : bytesOf (relay (α := Empty) codec buffer
          ((chunk :: reads).map .bytes)).chunks = [] := by
        rw [map_cons, relay_deep isFirst shallow]
        rfl
      rw [nothing, length_append]
      exact Nat.lt_of_lt_of_le
        (length_pos_iff.mpr (kept_ne_nil cut.framed deep))
        (Nat.le_add_right _ _)

/-- A usage event is taken out of a stream, and nothing else. -/
theorem stripped_of_shallow {reads : List Bytes}
    (cut : Cut eventEnds reads.flatten events rest)
    (shallow : Shallow codec events) : Stripped codec reads := by
  have exact_ : strippedBytes codec reads = kept codec events ++ rest :=
    bytesOf_relay open_nil cut shallow
  refine ⟨⟨events, rest, cut, fun others left another =>
    another.unique cut, exact_⟩, ?_⟩
  intro others same
  rw [← same] at cut
  exact (bytesOf_relay open_nil cut shallow).trans exact_.symm

/-- Just the streams in which each whole event can be read are relayed. -/
theorem stripped_iff_shallow (codec : Codec) (reads : List Bytes) :
    Stripped codec reads ↔
      ∀ events rest, Cut eventEnds reads.flatten events rest →
        Shallow codec events := by
  constructor
  · intro stripped events rest cut
    by_contra deep
    obtain ⟨others, left, another, _, same⟩ := stripped.precise
    obtain ⟨rfl, rfl⟩ := cut.unique another
    have shorter : (strippedBytes codec reads).length <
        (kept codec events ++ rest).length :=
      relay_shorter cut open_nil deep
    rw [same] at shorter
    exact Nat.lt_irrefl _ shorter
  · intro shallow
    obtain ⟨events, rest, cut⟩ := exists_cut eventEnds_prompt reads.flatten
    exact stripped_of_shallow cut (shallow events rest cut)

/-- What is yielded before an event which cannot be read depends on the cut. -/
theorem lost_of_unread {kind deep : Bytes}
    (frameKind : Frame eventEnds kind) (frameDeep : Frame eventEnds deep)
    (isKept : isUsageOnlyEvent codec kind = some false)
    (unread : isUsageOnlyEvent codec deep = none) :
    strippedBytes codec [kind ++ deep] = [] ∧
      strippedBytes codec [kind, deep] = kind := by
  have notShallow : ∀ events, deep ∈ events → ¬ Shallow codec events :=
    fun events isIn shallow => shallow deep isIn unread
  have first : Cut eventEnds ([] ++ kind) [kind] [] :=
    ⟨by simp, by simpa using frameKind, open_nil⟩
  have second : Cut eventEnds ([] ++ deep) [deep] [] :=
    ⟨by simp, by simpa using frameDeep, open_nil⟩
  have both : Cut eventEnds ([] ++ (kind ++ deep)) [kind, deep] [] :=
    ⟨by simp, by simpa using ⟨frameKind, frameDeep⟩, open_nil⟩
  constructor
  · rw [strippedBytes, map_cons, stripUsageOnlyChunk,
      relay_deep both (notShallow _ (mem_cons_of_mem _ mem_cons_self))]
    rfl
  · have shallow : Shallow codec [kind] := by
      intro event isIn
      rw [mem_singleton.mp isIn, isKept]
      nofun
    rw [strippedBytes, map_cons, stripUsageOnlyChunk,
      relay_cons first shallow, map_cons,
      relay_deep second (notShallow _ mem_cons_self), kept_cons, isKept]
    simp [kept, bytesOf]

/-! ## An event which nests too deep -/

/-- `json.loads` where a text opens brackets and closes none of them. -/
def openingCodec : Codec where
  decode data := String.ofList (data.map fun byte => Char.ofNat byte.toNat)
  loads raw := if 100000 ≤ raw.toList.count '[' then .tooDeep else .invalid

/-- `data:x` and a blank line. -/
def plainEvent : Bytes :=
  [100, 97, 116, 97, 58, 120, 10, 10]

/-- An object of one key, for which brackets are opened, and a blank line. -/
def deepEvent (depth : Nat) : Bytes :=
  [100, 97, 116, 97, 58, 123, 34, 97, 34, 58] ++ replicate depth 91 ++
    [10, 10]

theorem frame_plainEvent : Frame eventEnds plainEvent where
  ends := ⟨[10, 10], by decide, by decide⟩
  first := by decide

theorem frame_deepEvent (depth : Nat) :
    Frame eventEnds (deepEvent depth) where
  ends := ⟨[10, 10], by decide, suffix_append _ _⟩
  first := by
    have twice : ∀ terminator ∈ eventEnds,
        2 ≤ terminator.count 10 ∨ 2 ≤ terminator.count 13 := by
      decide
    have front : (deepEvent depth).dropLast =
        [100, 97, 116, 97, 58, 123, 34, 97, 34, 58] ++
          replicate depth 91 ++ [10] := by
      rw [deepEvent, dropLast_append_of_ne_nil (by decide)]
      rfl
    intro terminator isIn isInfix
    rw [front] at isInfix
    have lines := isInfix.sublist.count_le 10
    have returns := isInfix.sublist.count_le 13
    simp [count_replicate] at lines returns
    have most := twice terminator isIn
    omega

theorem stripped_brackets (char : Char) (front tail : List Char)
    (depth : Nat) (starts : isSpace char = false)
    (blank : ∀ other ∈ tail, isSpace other = true) :
    stripped (String.ofList
        (char :: front ++ replicate (depth + 1) '[' ++ tail)) =
      char :: front ++ replicate (depth + 1) '[' := by
  have bracket : isSpace '[' = false := by decide
  have blankBack : ∀ other ∈ tail.reverse, isSpace other = true := by
    simpa using blank
  rw [stripped, String.toList_ofList, cons_append, cons_append,
    dropWhile_cons_of_neg (by simp [starts]), ← cons_append, ← cons_append,
    reverse_append, dropWhile_append_of_pos blankBack, reverse_append,
    reverse_replicate, replicate_succ, cons_append,
    dropWhile_cons_of_neg (by simp [bracket]), ← cons_append,
    ← replicate_succ, reverse_append, reverse_replicate, reverse_reverse]

theorem deepEvent_unread (depth : Nat) (deep : 100000 ≤ depth + 1) :
    isUsageOnlyEvent openingCodec (deepEvent (depth + 1)) = none := by
  have decoded : openingCodec.decode (deepEvent (depth + 1)) =
      String.ofList ('d' :: "ata:\x7b\"a\":".toList ++
        replicate (depth + 1) '[' ++ ['\n', '\n']) := by
    simp only [openingCodec, deepEvent, map_append, map_replicate]
    rfl
  have newline : isSpace '\n' = true := by decide
  have text := stripped_brackets 'd' "ata:\x7b\"a\":".toList ['\n', '\n']
    depth (by decide)
    (forall_mem_cons.mpr ⟨newline, forall_mem_cons.mpr ⟨newline, nofun⟩⟩)
  have data := stripped_brackets '\x7b' "\"a\":".toList [] depth
    (by decide) nofun
  rw [append_nil] at data
  have loads : openingCodec.loads (String.ofList ('\x7b' ::
      "\"a\":".toList ++ replicate (depth + 1) '[')) = .tooDeep := by
    have many : 100000 ≤ (String.ofList ('\x7b' :: "\"a\":".toList ++
        replicate (depth + 1) '[')).toList.count '[' := by
      rw [String.toList_ofList, count_append, count_replicate_self]
      exact deep.trans (Nat.le_add_left _ _)
    exact if_pos many
  rw [isUsageOnlyEvent, decoded, text]
  have isData : ("data:".toList.isPrefixOf ('d' :: "ata:\x7b\"a\":".toList ++
      replicate (depth + 1) '[')) = true := rfl
  have dropped : ('d' :: "ata:\x7b\"a\":".toList ++
      replicate (depth + 1) '[').drop "data:".length =
        '\x7b' :: "\"a\":".toList ++ replicate (depth + 1) '[' := rfl
  have isObject : ("\x7b".toList.isPrefixOf ('\x7b' :: "\"a\":".toList ++
      replicate (depth + 1) '[')) = true := rfl
  simp only [isData, dropped, data, isObject, loads]
  rfl

/-- What is yielded depends on the cut, and the deep event is lost. -/
theorem deep_event_lost :
    strippedBytes openingCodec [plainEvent ++ deepEvent 100000] = [] ∧
      strippedBytes openingCodec [plainEvent, deepEvent 100000] =
        plainEvent ∧
      ¬ Stripped openingCodec [plainEvent ++ deepEvent 100000] := by
  have isKept : isUsageOnlyEvent openingCodec plainEvent = some false := rfl
  obtain ⟨inOne, inTwo⟩ := lost_of_unread frame_plainEvent
    (frame_deepEvent 100000) isKept (deepEvent_unread 99999 (Nat.le_refl _))
  refine ⟨inOne, inTwo, fun stripped => ?_⟩
  have same := stripped.independent [plainEvent, deepEvent 100000]
    (by rw [flatten_cons, flatten_singleton, flatten_singleton])
  rw [inOne, inTwo] at same
  cases same

end Hal0.Dispatcher.StreamUsage
