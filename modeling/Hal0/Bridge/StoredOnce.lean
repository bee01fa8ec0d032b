import Hal0.Bridge.Watch
import Hal0.Bridge.Isolation

/-!
# Streamed output is stored exactly once

Hermes holds the frames of a run in the order of their numbers, and a
connection yields them in that order from the number it was asked for, with
repetitions.  Whatever fails, the row and the events of a live run tell of
exactly the frames up to `last_seq`.
-/

namespace Hal0.Bridge

open List Option
open Hal0.Transition

/-! ## What is stored -/

/-- The frames that Hermes sends of a run. -/
structure History extends Numbered Frame Frame.seq where
  positive : ∀ frame ∈ items, 0 < frame.seq

/-- The text of the deltas, joined. -/
def textOf (frames : List Frame) : String :=
  String.join ((frames.filter Frame.isDelta).map Frame.deltaText)

/-- The frame that is stored as it came. -/
def Payload.frame? : Payload → Option Frame
  | .messageText _ _ => none
  | .frame sent => some sent

/-- The number at which an event begins. -/
def StoredEvent.fromSeq (event : StoredEvent) : Nat :=
  match event.payload with
  | .messageText fromSeq _ => fromSeq
  | .frame _ => event.seq

/-- What an event tells is what the frames of its range told. -/
def StoredEvent.Tells (history : History) (event : StoredEvent) : Prop :=
  match event.payload with
  | .messageText fromSeq text =>
    text = textOf (history.items.filter fun frame =>
      fromSeq ≤ frame.seq && frame.seq ≤ event.seq)
  | .frame frame => event.seq = frame.seq ∧ event.event = frame.name

/--
The row tells of the frames up to `last_seq`: the output is their text, every
other frame was stored once in its place, the ranges of the stored events
come one after another, and the table holds the newest of them.
-/
structure StoredOnce (history : History) (row : RunRow)
    (stored events : List StoredEvent) : Prop where
  output : row.output.getD "" = textOf (history.upTo row.lastSeq)
  frames : stored.filterMap (fun event => event.payload.frame?) =
    (history.upTo row.lastSeq).filter fun frame => !frame.isDelta
  apart : stored.Pairwise fun earlier later => earlier.seq < later.fromSeq
  within : ∀ event ∈ stored,
    event.fromSeq ≤ event.seq ∧ event.seq ≤ row.lastSeq
  tells : ∀ event ∈ stored, event.Tells history
  table : events = stored.drop (stored.length - eventCap)

/-- A connection yields the next frame, or repeats an earlier one. -/
def Yields (history : History) (watch : Watch) : WatchAction → Prop
  | .frame frame _ =>
    frame ∈ history.items ∧
      (frame.seq ≤ watch.position ∨
        history.IsNext watch.position frame)
  | _ => True

/-! ## Texts -/

section Texts

variable {frames more : List Frame}

theorem textOf_append :
    textOf (frames ++ more) = textOf frames ++ textOf more := by
  simp [textOf]

theorem textOf_deltas (deltas : ∀ frame ∈ frames, frame.isDelta = true) :
    textOf frames = String.join (frames.map Frame.deltaText) := by
  rw [textOf, filter_eq_self.mpr deltas]

theorem textOf_other {frame : Frame} (other : frame.isDelta = false) :
    textOf [frame] = "" := by
  simp [textOf, other]

end Texts

/-! ## The table of events -/

section Table

variable {stored events : List StoredEvent} {event : StoredEvent}

theorem insertEvent_last (later : ∀ other ∈ events, other.seq < event.seq) :
    insertEvent events event = events ++ [event] := by
  have all : events.filter (fun other => other.seq < event.seq) = events :=
    filter_eq_self.mpr fun other mem => by simpa using later other mem
  have none : events.filter (fun other => event.seq < other.seq) = [] :=
    filter_eq_nil_iff.mpr fun other mem => by
      have := later other mem
      simp
      omega
  rw [insertEvent, all, none]

/-- A higher row pushes the oldest out. -/
theorem appendEvent_last
    (table : events = stored.drop (stored.length - eventCap))
    (later : ∀ other ∈ stored, other.seq < event.seq) :
    appendEvent events event =
      (stored ++ [event]).drop ((stored ++ [event]).length - eventCap) := by
  have inTable : ∀ other ∈ events, other.seq < event.seq := by
    intro other mem
    rw [table] at mem
    exact later other (mem_of_mem_drop mem)
  have positive : 0 < eventCap := by decide
  simp only [appendEvent, insertEvent_last inTable, length_append,
    length_singleton]
  generalize eventCap = cap at table positive ⊢
  have size : events.length = min stored.length cap := by
    rw [table, length_drop]
    omega
  have dropped : stored.length - cap + (events.length + 1 - cap) =
      stored.length + 1 - cap := by
    omega
  rw [drop_append_of_le_length (by omega),
    drop_append_of_le_length (by omega), ← dropped, ← drop_drop,
    ← table]

end Table

/-! ## What the watcher holds in memory -/

/-- The tail is the row, and the frames which were seen since. -/
structure Following (history : History) (tail : Tail) (row : RunRow) :
    Prop where
  lastSeq : tail.lastSeq = row.lastSeq
  output : tail.output = row.output.getD ""
  buffer : tail.buffer =
    (history.within tail.lastSeq tail.seen).map Frame.deltaText
  deltas : ∀ frame ∈ history.within tail.lastSeq tail.seen,
    frame.isDelta = true
  start : tail.isFlushed = false →
    tail.lastSeq < tail.bufferFrom ∧ tail.bufferFrom ≤ tail.bufferTo ∧
      ∀ frame ∈ history.items,
        tail.lastSeq < frame.seq ↔ tail.bufferFrom ≤ frame.seq

/-- What is known of the frame at hand. -/
def Point.Ready (history : History) (tail : Tail) (position : Nat) :
    Point → Prop
  | .streaming => position ≤ tail.seen
  | .flushing .stream => position ≤ tail.seen
  | .flushing (.frame frame) =>
    history.IsNext tail.seen frame ∧ frame.isDelta = false ∧
      position = frame.seq
  | .recording frame =>
    tail.isFlushed = true ∧ history.IsNext tail.lastSeq frame ∧
      frame.isDelta = false ∧ position = frame.seq
  | _ => True

/-- The watcher is done. -/
def Point.isOver : Point → Bool
  | .closed _ => true
  | _ => false

/-- A live run is stored once; the watch of a run which ended is over. -/
structure Sound (history : History) (watch : Watch) : Prop where
  ended : ∀ row, watch.ledger.getRun watch.tail.runId = some row →
    row.isLive = false → watch.point.isOver = true
  once : ∀ row, watch.ledger.getRun watch.tail.runId = some row →
    row.isLive = true →
      StoredOnce history row watch.stored
        (watch.ledger.events watch.tail.runId)
  following : ∀ row, watch.ledger.getRun watch.tail.runId = some row →
    watch.point.isOver = false → Following history watch.tail row
  ready : watch.point.isOver = false →
    watch.point.Ready history watch.tail watch.position

/-! ## One more event -/

section Events

variable {history : History} {row after : RunRow} {tail : Tail}
  {stored events : List StoredEvent} {frame : Frame} {now : Time}

theorem Following.seen_of_unflushed (unflushed : tail.isFlushed = false) :
    tail.seen = tail.bufferTo := by
  simp only [Tail.isFlushed, decide_eq_false_iff_not] at unflushed
  unfold Tail.seen
  omega

theorem Following.seen_of_flushed (flushed : tail.isFlushed = true) :
    tail.seen = tail.lastSeq := by
  simp only [Tail.isFlushed, decide_eq_true_eq] at flushed
  unfold Tail.seen
  omega

theorem Following.text (following : Following history tail row) :
    tail.text = textOf (history.within tail.lastSeq tail.seen) := by
  rw [textOf_deltas following.deltas, Tail.text, following.buffer]

theorem Following.congr (following : Following history tail row)
    (lastSeq : after.lastSeq = row.lastSeq)
    (output : after.output = row.output) : Following history tail after :=
  { following with
    lastSeq := following.lastSeq.trans lastSeq.symm
    output := by rw [following.output, output] }

theorem Following.flushed
    (lastSeq : after.lastSeq = tail.bufferTo)
    (output : after.output = some (tail.output ++ tail.text)) :
    Following history tail.flushed after := by
  have nothing : tail.flushed.seen = tail.flushed.lastSeq := by
    simp [Tail.flushed, Tail.seen]
  constructor
  · exact lastSeq.symm
  · simp [Tail.flushed, output]
  · rw [nothing, Numbered.within_self]
    rfl
  · rw [nothing, Numbered.within_self]
    simp
  · simp [Tail.flushed, Tail.isFlushed]

theorem Following.of (row : RunRow) : Following history (.of row) row := by
  have nothing : (Tail.of row).seen = (Tail.of row).lastSeq := by
    simp [Tail.of, Tail.seen]
  constructor
  · rfl
  · rfl
  · rw [nothing, Numbered.within_self]
    rfl
  · rw [nothing, Numbered.within_self]
    simp
  · simp [Tail.of, Tail.isFlushed]

section

variable (once : StoredOnce history row stored events)
include once

/-- A write which touches neither the output nor `last_seq`. -/
theorem StoredOnce.congr (lastSeq : after.lastSeq = row.lastSeq)
    (output : after.output = row.output) :
    StoredOnce history after stored events := by
  obtain ⟨text, frames, apart, within, tells, table⟩ := once
  constructor
  · rw [output, lastSeq, text]
  · rw [lastSeq, frames]
  · exact apart
  · rw [lastSeq]
    exact within
  · exact tells
  · exact table

/-- The next row is stored. -/
theorem StoredOnce.append {event : StoredEvent}
    (later : row.lastSeq < event.fromSeq) (ordered : event.fromSeq ≤ event.seq)
    (lastSeq : after.lastSeq = event.seq)
    (output : after.output.getD "" = textOf (history.upTo event.seq))
    (frames : event.payload.frame?.toList =
      (history.within row.lastSeq event.seq).filter
        fun frame => !frame.isDelta) (tells : event.Tells history) :
    StoredOnce history after (stored ++ [event])
      (appendEvent events event) := by
  constructor
  · rw [output, lastSeq]
  · rw [lastSeq, ← Numbered.upTo_append_within (by omega :
      row.lastSeq ≤ event.seq), filter_append, ← frames,
      filterMap_append, once.frames]
    cases held : event.payload.frame? <;> simp [held]
  · rw [pairwise_append]
    refine ⟨once.apart, by simp, ?_⟩
    intro earlier mem last isLast
    obtain rfl := mem_singleton.mp isLast
    exact Nat.lt_of_le_of_lt (once.within earlier mem).2 later
  · intro other mem
    rcases mem_append.mp mem with earlier | isLast
    · have := once.within other earlier
      omega
    · obtain rfl := mem_singleton.mp isLast
      exact ⟨ordered, lastSeq.ge⟩
  · intro other mem
    rcases mem_append.mp mem with earlier | isLast
    · exact once.tells other earlier
    · obtain rfl := mem_singleton.mp isLast
      exact tells
  · refine appendEvent_last once.table fun other mem => ?_
    have := once.within other mem
    omega

/-- The buffered text is stored. -/
theorem StoredOnce.text (following : Following history tail row)
    (unflushed : tail.isFlushed = false)
    (lastSeq : after.lastSeq = tail.bufferTo)
    (output : after.output = some (tail.output ++ tail.text)) :
    StoredOnce history after (stored ++ [tail.textEvent now])
      (appendEvent events (tail.textEvent now)) := by
  have seen := Following.seen_of_unflushed unflushed
  have deltas := following.deltas
  obtain ⟨later, ordered, start⟩ := following.start unflushed
  have le : row.lastSeq ≤ tail.bufferTo := by
    rw [← following.lastSeq]
    omega
  refine once.append ?_ ordered lastSeq ?_ ?_ ?_
  · rw [← following.lastSeq]
    exact later
  · simp only [output, getD_some, Tail.textEvent]
    rw [following.output, once.output, following.text, seen,
      following.lastSeq, ← textOf_append, Numbered.upTo_append_within le]
  · rw [← following.lastSeq]
    symm
    rw [seen] at deltas
    simp only [Tail.textEvent, Payload.frame?, toList_none, filter_eq_nil_iff]
    intro frame mem
    simp [deltas frame mem]
  · simp only [StoredEvent.Tells, Tail.textEvent]
    rw [following.text, seen]
    congr 1
    refine filter_congr fun frame mem => ?_
    rw [Bool.eq_iff_iff]
    simp only [Bool.and_eq_true, decide_eq_true_eq, start frame mem]
    exact and_congr_right fun _ => decide_eq_true_iff.symm

theorem StoredOnce.sent (next : history.IsNext row.lastSeq frame)
    (other : frame.isDelta = false) (lastSeq : after.lastSeq = frame.seq)
    (output : after.output = row.output) :
    StoredOnce history after (stored ++ [frame.stored now])
      (appendEvent events (frame.stored now)) := by
  refine once.append next.2.1 le_rfl lastSeq ?_ ?_ ⟨rfl, rfl⟩
  · have whole := Numbered.upTo_next next
    simp only [Frame.stored]
    rw [output, once.output, whole, textOf_append, textOf_other other]
    simp
  · have since := Numbered.within_next (le_refl row.lastSeq) next
    simp only [Frame.stored, Payload.frame?]
    rw [since, Numbered.within_self]
    simp [other]

end

end Events

/-! ## What the writers leave alone -/

section Writers

variable {row : RunRow} {frame : Frame} {writer : Writer} {now : Time}

theorem clearPending_output (requestId : Option String) :
    (row.clearPending requestId).output = none := by
  unfold RunRow.clearPending
  split
  · rfl
  · split <;> rfl

theorem clearPending_live (requestId : Option String)
    (live : (!row.status.isTerminal) = true) :
    (!((row.clearPending requestId).status.getD
      row.status).isTerminal) = true := by
  unfold RunRow.clearPending
  split
  · exact live
  · split
    · exact live
    · simp only
      split
      · rfl
      · exact live

theorem Frame.changes_output : (frame.changes now row).output = none := by
  unfold Frame.changes Frame.otherChanges Frame.settledChanges
  split_ifs <;> first | rfl | exact clearPending_output none

/-- Only `_finish` brings a run to its end. -/
theorem Frame.changes_live (live : (!row.status.isTerminal) = true) :
    (!((frame.changes now row).status.getD row.status).isTerminal) =
      true := by
  unfold Frame.changes Frame.otherChanges Frame.settledChanges
  split_ifs <;>
    first | rfl | exact live | exact clearPending_live none live

theorem stopStatus_live (reported : Option String) :
    (stopStatus reported).isTerminal = false := by
  unfold stopStatus
  split
  · rfl
  · split
    · rfl
    · rename_i status _ neither
      simpa using And.left (by simpa using neither)

/-- No other writer touches the output. -/
theorem Writer.changes_output : (writer.changes now row).output = none := by
  cases writer with
  | settle requestId => exact clearPending_output (some requestId)
  | stopping reported => rfl
  | clarifyDeadline requestId error =>
    simp only [Writer.changes]
    split <;> rfl
  | stopDelivered =>
    simp only [Writer.changes]
    split <;> rfl
  | storeApprovalId requestId approvalId =>
    simp only [Writer.changes]
    split
    · rfl
    · split <;> rfl

/-- No other writer ends the run. -/
theorem Writer.changes_live (live : (!row.status.isTerminal) = true) :
    (!((writer.changes now row).status.getD row.status).isTerminal) =
      true := by
  cases writer with
  | settle requestId => exact clearPending_live (some requestId) live
  | stopping reported =>
    simp only [Writer.changes, RunRow.stopChanges]
    split
    · exact live
    · simp [stopStatus_live]
  | clarifyDeadline requestId error =>
    simp only [Writer.changes]
    split
    · rfl
    · exact live
  | stopDelivered =>
    simp only [Writer.changes]
    split <;> exact live
  | storeApprovalId requestId approvalId =>
    simp only [Writer.changes]
    split
    · exact live
    · split <;> exact live

end Writers

/-! ## Steps -/

section Steps

variable {history : History} {timing : WatcherTiming} {watch next : Watch}
  {frame : Frame} {fate : Fate} {now : Time} {action : WatchAction}

theorem Sound.live (sound : Sound history watch) {row : RunRow}
    (found : watch.ledger.getRun watch.tail.runId = some row)
    (going : watch.point.isOver = false) : row.isLive = true := by
  cases live : row.isLive with
  | true => rfl
  | false =>
    have isOver := sound.ended row found live
    rw [going] at isOver
    cases isOver

theorem Sound.goTo (sound : Sound history watch)
    (going : watch.point.isOver = false) (point : Point)
    (ready : point.Ready history watch.tail watch.position) :
    Sound history (watch.goTo point) where
  ended := fun row found ended => by
    rw [sound.live found going] at ended
    cases ended
  once := fun row found live => sound.once row found live
  following := fun row found _ => sound.following row found going
  ready := fun _ => ready

theorem Sound.set (sound : Sound history watch)
    (going : watch.point.isOver = false) (point : Point) {position : Nat}
    (ready : point.Ready history watch.tail position)
    (progressed : Bool) (lastContact : Time) (connections : Nat) :
    Sound history { watch with
      point := point
      progressed := progressed
      lastContact := lastContact
      position := position
      connections := connections } where
  ended := fun row found ended => by
    rw [sound.live found going] at ended
    cases ended
  once := fun row found live => sound.once row found live
  following := fun row found _ => sound.following row found going
  ready := fun _ => ready

/-- The run was not gone, and its row and tail are as they should be. -/
structure Holds (history : History) (watch : Watch) (row : RunRow) : Prop where
  found : watch.ledger.getRun watch.tail.runId = some row
  live : row.isLive = true
  once : StoredOnce history row watch.stored
    (watch.ledger.events watch.tail.runId)
  following : Following history watch.tail row

theorem Sound.holds (sound : Sound history watch) {row : RunRow}
    (found : watch.ledger.getRun watch.tail.runId = some row)
    (going : watch.point.isOver = false) : Holds history watch row where
  found := found
  live := sound.live found going
  once := sound.once row found (sound.live found going)
  following := sound.following row found going

theorem Holds.sound (row : RunRow) (holds : Holds history watch row)
    (ready : watch.point.isOver = false →
      watch.point.Ready history watch.tail watch.position) :
    Sound history watch where
  ended := fun other found ended => by
    obtain rfl : row = other := some.inj (holds.found.symm.trans found)
    rw [holds.live] at ended
    cases ended
  once := fun other found _ => by
    obtain rfl : row = other := some.inj (holds.found.symm.trans found)
    exact holds.once
  following := fun other found _ => by
    obtain rfl : row = other := some.inj (holds.found.symm.trans found)
    exact holds.following
  ready := ready

theorem Sound.gone
    (gone : watch.ledger.getRun watch.tail.runId = none)
    (ready : watch.point.isOver = false →
      watch.point.Ready history watch.tail watch.position) :
    Sound history watch where
  ended := fun row found => by
    rw [gone] at found
    cases found
  once := fun row found => by
    rw [gone] at found
    cases found
  following := fun row found => by
    rw [gone] at found
    cases found
  ready := ready

/-- What a flush which comes through leaves. -/
structure Flushed (history : History) (watch next : Watch) : Prop where
  point : next.point = watch.point
  position : next.position = watch.position
  progressed : next.progressed = watch.progressed
  connections : next.connections = watch.connections
  isFlushed : next.tail.isFlushed = true
  lastSeq : next.tail.lastSeq = watch.tail.seen
  holds : ∀ row, next.ledger.getRun next.tail.runId = some row →
    Holds history next row

/-- The buffer is written, or nothing is. -/
theorem Sound.flush (sound : Sound history watch)
    (going : watch.point.isOver = false)
    (done : watch.flush fate now = .ok next) :
    Flushed history watch next := by
  unfold Watch.flush at done
  split at done
  · rename_i flushed
    obtain rfl : watch = next := by simpa using done
    refine ⟨rfl, rfl, rfl, rfl, flushed,
      (Following.seen_of_flushed flushed).symm, ?_⟩
    intro row found
    exact sound.holds found going
  · rename_i isFlushed
    have unflushed : watch.tail.isFlushed = false := by
      simpa using isFlushed
    cases fate with
    | fails => cases done
    | commits =>
      simp only at done
      split at done
      · cases done
      · rename_i recorded written
        obtain rfl := Except.ok.inj done
        have records := Ledger.record_eq_some written
        have held := sound.holds records.found going
        have seen := Following.seen_of_unflushed unflushed
        refine ⟨rfl, rfl, rfl, rfl, by simp [Tail.flushed, Tail.isFlushed],
          seen.symm, ?_⟩
        intro row found
        obtain rfl := some.inj (records.row.symm.trans found)
        have lastSeq : (Ledger.rowAfter recorded.before
            (some (watch.tail.textEvent now))
            (watch.tail.textChanges recorded.before) now).lastSeq =
              watch.tail.bufferTo := by
          have := (held.following.start unflushed).1
          have := (held.following.start unflushed).2.1
          have := held.following.lastSeq
          simp only [Ledger.rowAfter_lastSeq, Ledger.bumped, Tail.textEvent]
          omega
        have output : (Ledger.rowAfter recorded.before
            (some (watch.tail.textEvent now))
            (watch.tail.textChanges recorded.before) now).output =
              some (watch.tail.output ++ watch.tail.text) := by
          simp [Tail.textChanges]
        refine ⟨records.row, ?_, ?_, ?_⟩
        · have before := held.live
          unfold RunRow.isLive at before ⊢
          simp only [Ledger.rowAfter_status, Tail.textChanges]
          split
          · rfl
          · exact before
        · have events := records.events
          simp only [Ledger.eventsAfter] at events
          show StoredOnce history _ _ (recorded.ledger.events _)
          rw [show watch.tail.flushed.runId = watch.tail.runId from rfl,
            events]
          exact held.once.text held.following unflushed lastSeq output
        · exact Following.flushed lastSeq output

/-- The frame is written, or nothing is. -/
theorem Sound.recordFrame (sound : Sound history watch)
    (recording : watch.point = .recording frame)
    (done : watch.recordFrame frame fate now = .ok next) :
    next.position = frame.seq ∧ next.tail.seen = frame.seq ∧
      ∀ row, next.ledger.getRun next.tail.runId = some row →
        Holds history next row := by
  have going : watch.point.isOver = false := by
    rw [recording]
    rfl
  have ready := sound.ready going
  rw [recording] at ready
  obtain ⟨flushed, isNext, other, position⟩ := ready
  have seen := Following.seen_of_flushed flushed
  have later : watch.tail.lastSeq < frame.seq := isNext.2.1
  unfold Watch.recordFrame at done
  cases fate with
  | fails => cases done
  | commits =>
    simp only at done
    split at done
    · cases done
    · rename_i recorded written
      obtain rfl := Except.ok.inj done
      have records := Ledger.record_eq_some written
      have held := sound.holds records.found going
      have same := held.following.lastSeq
      have empty : watch.tail.bufferTo ≤ watch.tail.lastSeq := by
        simpa [Tail.isFlushed] using flushed
      refine ⟨position, ?_, ?_⟩
      · simp only [Tail.seen]
        omega
      · intro row found
        obtain rfl := some.inj (records.row.symm.trans found)
        have lastSeq : (Ledger.rowAfter recorded.before
            (some (frame.stored now))
            (frame.changes now recorded.before) now).lastSeq =
              frame.seq := by
          simp only [Ledger.rowAfter_lastSeq, Ledger.bumped, Frame.stored]
          omega
        have output : (Ledger.rowAfter recorded.before
            (some (frame.stored now))
            (frame.changes now recorded.before) now).output =
              recorded.before.output := by
          simp [Frame.changes_output]
        refine ⟨records.row, ?_, ?_, ?_⟩
        · have before := held.live
          unfold RunRow.isLive at before ⊢
          rw [Ledger.rowAfter_status]
          exact Frame.changes_live before
        · have events := records.events
          simp only [Ledger.eventsAfter] at events
          show StoredOnce history _ _ (recorded.ledger.events _)
          rw [events]
          rw [same] at isNext
          exact held.once.sent isNext other lastSeq output
        · have nothing : max frame.seq watch.tail.bufferTo = frame.seq := by
            omega
          have buffer := held.following.buffer
          rw [seen, Numbered.within_self] at buffer
          constructor
          · exact lastSeq.symm
          · rw [output]
            exact held.following.output
          · simp only [Tail.seen, nothing, Numbered.within_self]
            exact buffer
          · simp only [Tail.seen, nothing, Numbered.within_self]
            simp
          · intro unflushed
            simp only [Tail.isFlushed, decide_eq_false_iff_not] at unflushed
            omega

/-- The end of the run keeps it. -/
theorem Sound.finish (sound : Sound history watch) {ending : Ending}
    (going : watch.point.isOver = false)
    (done : watch.finish ending fate now = .ok next) :
    Sound history (next.goTo (.closed .ended)) := by
  unfold Watch.finish at done
  cases fate with
  | fails => cases done
  | commits =>
    simp only at done
    split at done
    · rename_i refused
      obtain rfl := Except.ok.inj done
      refine Sound.gone ?_ nofun
      cases found : watch.ledger.getRun watch.tail.runId with
      | none => exact found
      | some row =>
        have ended := (Ledger.record_eq_none refused row found).2
        rw [sound.live found going] at ended
        cases ended
    · rename_i recorded written
      obtain rfl := Except.ok.inj done
      have records := Ledger.record_eq_some written
      have isOver : (Ledger.rowAfter recorded.before
          (ending.frame.map fun frame => frame.stored now)
          (ending.changes watch.tail recorded.before) now).isLive =
            false := by
        simp [RunRow.isLive, Ending.changes, ending.terminal]
      constructor
      · intro row found ended
        rfl
      · intro row found live
        obtain rfl := some.inj (records.row.symm.trans found)
        rw [isOver] at live
        cases live
      · intro row found going
        cases going
      · intro going
        cases going

/-- A delta goes into the buffer. -/
theorem Following.bufferDelta {tail : Tail} {row : RunRow}
    (following : Following history tail row)
    (next : history.IsNext tail.seen frame)
    (delta : frame.isDelta = true) :
    Following history
      (tail.bufferDelta frame.seq frame.deltaText now) row := by
  have later : tail.seen < frame.seq := next.2.1
  have le : tail.lastSeq ≤ tail.seen := Nat.le_max_left ..
  have seen : (tail.bufferDelta frame.seq frame.deltaText now).seen =
      frame.seq := by
    simp only [Tail.bufferDelta, Tail.seen] at later ⊢
    omega
  have since := Numbered.within_next le next
  constructor
  · exact following.lastSeq
  · exact following.output
  · rw [seen]
    show tail.buffer ++ [frame.deltaText] =
      (history.within tail.lastSeq frame.seq).map Frame.deltaText
    rw [since, map_append, following.buffer]
    rfl
  · rw [seen]
    intro other mem
    have among : other ∈ history.within tail.lastSeq tail.seen ++ [frame] := by
      rw [← since]
      exact mem
    rcases mem_append.mp among with earlier | isLast
    · exact following.deltas other earlier
    · rw [mem_singleton.mp isLast]
      exact delta
  · intro _
    cases flushed : tail.isFlushed with
    | true =>
      have atRow := Following.seen_of_flushed flushed
      rw [atRow] at next
      simp only [Tail.bufferDelta, flushed, Bool.or_true, if_true]
      refine ⟨by omega, le_rfl, fun other mem => ⟨next.2.2 other mem, ?_⟩⟩
      intro after
      exact Nat.lt_of_lt_of_le next.2.1 after
    | false =>
      obtain ⟨first, ordered, start⟩ := following.start flushed
      have buffered := Following.seen_of_unflushed flushed
      have nonzero : tail.bufferTo ≠ 0 := by omega
      simp only [Tail.bufferDelta, flushed, nonzero, decide_false,
        Bool.or_self, Bool.false_eq_true, if_false]
      exact ⟨first, by omega, start⟩

section

variable (sound : Sound history watch)
include sound

/-- A frame of the stream keeps it. -/
theorem Sound.onEvent (streaming : watch.point = .streaming)
    (yields : Yields history watch (.frame frame now)) :
    Sound history (watch.onEvent timing frame now) := by
  have going : watch.point.isOver = false := by
    rw [streaming]
    rfl
  have read : watch.position ≤ watch.tail.seen := by
    have ready := sound.ready going
    rw [streaming] at ready
    exact ready
  unfold Watch.onEvent
  simp only
  split
  · rename_i repeated
    refine sound.set going watch.point ?_ watch.progressed now
      watch.connections
    rw [streaming]
    exact Nat.max_le.mpr ⟨read, repeated⟩
  · rename_i fresh
    have isNext : history.IsNext watch.tail.seen frame := by
      rcases yields.2 with earlier | next
      · omega
      · refine ⟨next.1, by omega, fun other mem later => ?_⟩
        exact next.2.2 other mem (by omega)
    have position : max watch.position frame.seq = frame.seq := by omega
    split
    · rename_i delta
      have held : ∀ row, watch.ledger.getRun watch.tail.runId = some row →
          Following history
            (watch.tail.bufferDelta frame.seq frame.deltaText now) row := by
        intro row found
        exact (sound.following row found going).bufferDelta isNext delta
      have seen : frame.seq ≤
          (watch.tail.bufferDelta frame.seq frame.deltaText now).seen :=
        Nat.le_max_right ..
      split
      · refine ⟨?_, ?_, ?_, ?_⟩
        · intro row found ended
          rw [sound.live found going] at ended
          cases ended
        · intro row found live
          exact sound.once row found live
        · intro row found _
          exact held row found
        · intro _
          exact position.le.trans seen
      · refine ⟨?_, ?_, ?_, ?_⟩
        · intro row found ended
          rw [sound.live found going] at ended
          cases ended
        · intro row found live
          exact sound.once row found live
        · intro row found _
          exact held row found
        · intro _
          simp only [streaming]
          exact position.le.trans seen
    · rename_i other
      refine sound.set going (.flushing (.frame frame)) ?_
        watch.progressed now watch.connections
      exact ⟨isNext, by simpa using other, position⟩

/-- The watcher begins again from its row. -/
theorem Sound.restart {known : Bool}
    (done : watch.restart known now = some next) : Sound history next := by
  unfold Watch.restart at done
  cases found : watch.ledger.getRun watch.tail.runId with
  | none => simp [found] at done
  | some row =>
    rw [found, bind_some] at done
    split at done
    · rename_i live
      obtain rfl := some.inj done
      have same : row.runId = watch.tail.runId :=
        Ledger.runId_of_getRun found
      refine Holds.sound row ⟨?_, live, ?_, .of row⟩ ?_
      · simpa [Tail.of, same] using found
      · simpa [Tail.of, same] using sound.once row found live
      · intro _
        cases known <;> trivial
    · cases done

/-- The other writers touch neither the output nor `last_seq`. -/
theorem Sound.other (writer : Writer) :
    Sound history { watch with
      ledger := (watch.ledger.updateLive watch.tail.runId
        (writer.changes now) now).1 } := by
  have before : ∀ row, (watch.ledger.updateLive watch.tail.runId
      (writer.changes now) now).1.getRun watch.tail.runId = some row →
        ∃ old, watch.ledger.getRun watch.tail.runId = some old ∧
          row.isLive = old.isLive ∧ row.lastSeq = old.lastSeq ∧
            row.output = old.output := by
    intro row found
    obtain ⟨old, wasThere, same | ⟨live, changed⟩⟩ :=
      Ledger.getRun_updateLive found
    · exact ⟨old, wasThere, by rw [same], by rw [same], by rw [same]⟩
    · refine ⟨old, wasThere, ?_, ?_, ?_⟩
      · rw [changed, live]
        unfold RunRow.isLive at live ⊢
        rw [Ledger.rowAfter_status]
        exact Writer.changes_live live
      · rw [changed, Ledger.rowAfter_lastSeq]
        rfl
      · rw [changed, Ledger.rowAfter_output, Writer.changes_output]
        rfl
  constructor
  · intro row found ended
    obtain ⟨old, wasThere, live, _⟩ := before row found
    exact sound.ended old wasThere (live ▸ ended)
  · intro row found live
    obtain ⟨old, wasThere, sameLive, lastSeq, output⟩ := before row found
    show StoredOnce history row watch.stored
      ((watch.ledger.updateLive watch.tail.runId (writer.changes now)
        now).1.events watch.tail.runId)
    rw [Ledger.events_updateLive]
    exact (sound.once old wasThere (sameLive ▸ live)).congr lastSeq output
  · intro row found going
    obtain ⟨old, wasThere, _, lastSeq, output⟩ := before row found
    exact (sound.following old wasThere going).congr lastSeq output
  · exact sound.ready

/-- A pruned ledger keeps it. -/
theorem Sound.prune (olderThan : Time) :
    Sound history { watch with
      ledger := watch.ledger.pruneRuns olderThan } := by
  have before : ∀ row, (watch.ledger.pruneRuns olderThan).getRun
      watch.tail.runId = some row →
        watch.ledger.getRun watch.tail.runId = some row := by
    intro row found
    rw [Ledger.getRun_pruneRuns] at found
    exact (filter_eq_some_iff.mp found).1
  constructor
  · intro row found ended
    exact sound.ended row (before row found) ended
  · intro row found live
    show StoredOnce history row watch.stored
      ((watch.ledger.pruneRuns olderThan).events watch.tail.runId)
    rw [Ledger.events_pruneRuns found]
    exact sound.once row (before row found) live
  · intro row found going
    exact sound.following row (before row found) going
  · exact sound.ready

theorem Sound.caught (going : watch.point.isOver = false) (raised : Raised) :
    Sound history (watch.caught raised) := by
  cases raised with
  | ledger => exact sound.goTo going _ trivial
  | gone => exact sound.goTo going _ trivial

end

theorem writeOf_ready {tail : Tail} (flushed : tail.isFlushed = true)
    (next : history.IsNext tail.lastSeq frame)
    (other : frame.isDelta = false) :
    (Watch.writeOf frame).Ready history tail frame.seq := by
  unfold Watch.writeOf
  split
  · exact ⟨flushed, next, other, rfl⟩
  · trivial

/-- A write, failing or not, keeps it. -/
theorem Sound.write (sound : Sound history watch)
    (done : watch.write fate now = some next) : Sound history next := by
  unfold Watch.write at done
  cases at_ : watch.point with
  | flushing after =>
    have going : watch.point.isOver = false := by
      rw [at_]
      rfl
    have ready := sound.ready going
    rw [at_] at ready done
    obtain rfl := some.inj done
    cases flush : watch.flush fate now with
    | error raised =>
      simp only
      split
      · exact sound.caught going raised
      · exact sound.goTo going _ trivial
    | ok flushed =>
      have result := sound.flush going flush
      have whole : Sound history (flushed.goTo .cycled) := by
        cases found : flushed.ledger.getRun flushed.tail.runId with
        | none => exact Sound.gone found fun _ => trivial
        | some row =>
          have held := result.holds row found
          have holds : Holds history (flushed.goTo .cycled) row :=
            ⟨found, held.live, held.once, held.following⟩
          exact holds.sound row fun _ => trivial
      have still : (flushed.goTo .cycled).point.isOver = false := rfl
      have seen := Following.seen_of_flushed result.isFlushed
      cases after with
      | stream =>
        refine whole.set still .streaming ?_ true _ _
        show flushed.position ≤ flushed.tail.seen
        rw [result.position, seen, result.lastSeq]
        exact ready
      | frame frame =>
        refine whole.goTo still (Watch.writeOf frame) ?_
        obtain ⟨next, other, position⟩ := ready
        show (Watch.writeOf frame).Ready history flushed.tail
          flushed.position
        rw [result.position, position]
        rw [← result.lastSeq] at next
        exact writeOf_ready result.isFlushed next other
      | quiet =>
        refine whole.set still _ ?_ flushed.progressed now
          flushed.connections
        split <;> trivial
      | refused status =>
        refine whole.goTo still _ ?_
        split <;> trivial
      | lost => exact whole.goTo still .cycled trivial
      | giveUp ending =>
        exact whole.goTo still (.finishing ending false)
          trivial
  | recording frame =>
    have going : watch.point.isOver = false := by
      rw [at_]
      rfl
    rw [at_] at done
    obtain rfl := some.inj done
    cases write : watch.recordFrame frame fate now with
    | error raised => exact sound.caught going raised
    | ok written =>
      obtain ⟨position, seen, holds⟩ := sound.recordFrame at_ write
      have read : written.position ≤ written.tail.seen := by
        rw [position, seen]
      cases found : written.ledger.getRun written.tail.runId with
      | none => exact Sound.gone found fun _ => read
      | some row =>
        have held := holds row found
        exact Holds.sound row
          ⟨found, held.live, held.once, held.following⟩ fun _ => read
  | finishing ending inBody =>
    have going : watch.point.isOver = false := by
      rw [at_]
      rfl
    rw [at_] at done
    obtain rfl := some.inj done
    cases finish : watch.finish ending fate now with
    | ok finished => exact sound.finish going finish
    | error raised =>
      simp only
      split
      · exact sound.caught going raised
      · exact sound.goTo going _ trivial
  | connecting => simp [at_] at done
  | streaming => simp [at_] at done
  | asking => simp [at_] at done
  | cycled => simp [at_] at done
  | pausing => simp [at_] at done
  | closed reason => simp [at_] at done

theorem Watch.goTo_of_step (moved : watch.step timing action = some next)
    (control :
      match action with
      | .quietEnd | .refused _ | .unavailable | .broken | .snapshot _
      | .check _ | .wake | .stopAll => True
      | _ => False) :
    watch.point.isOver = false ∧ ∃ point, next = watch.goTo point ∧
      point.Ready history watch.tail watch.position := by
  cases action <;> simp only at control <;>
    cases at_ : watch.point <;>
    simp only [Watch.step, at_, some.injEq, reduceCtorEq] at moved <;>
    refine ⟨rfl, _, moved.symm, ?_⟩ <;>
    first | trivial | (split <;> trivial)

/-- Every step keeps it. -/
theorem Sound.step (sound : Sound history watch)
    (yields : Yields history watch action)
    (moved : watch.step timing action = some next) : Sound history next := by
  cases action with
  | connect =>
    cases at_ : watch.point with
    | connecting =>
      simp only [Watch.step, at_, some.injEq] at moved
      subst moved
      have going : watch.point.isOver = false := by
        rw [at_]
        rfl
      refine sound.set going .streaming ?_ false _ _
      exact Nat.le_max_left ..
    | _ => simp [Watch.step, at_] at moved
  | frame frame now =>
    cases at_ : watch.point with
    | streaming =>
      simp only [Watch.step, at_, some.injEq] at moved
      subst moved
      exact sound.onEvent at_ yields
    | _ => simp [Watch.step, at_] at moved
  | write fate now => exact sound.write moved
  | restart known now => exact sound.restart moved
  | other writer now =>
    simp only [Watch.step, some.injEq] at moved
    subst moved
    exact sound.other writer
  | prune olderThan =>
    simp only [Watch.step, some.injEq] at moved
    subst moved
    exact sound.prune olderThan
  | _ =>
    obtain ⟨going, point, rfl, ready⟩ :=
      @Watch.goTo_of_step history _ _ _ _ moved trivial
    exact sound.goTo going _ ready

end Steps

/-! ## Whole runs -/

/-- The row of a run which Hermes has just accepted. -/
structure Fresh (ledger : Ledger) (row : RunRow) : Prop where
  found : ledger.getRun row.runId = some row
  live : row.isLive = true
  unread : row.lastSeq = 0
  silent : row.output = none
  events : ledger.events row.runId = []

/-- It holds of a run just admitted. -/
theorem Fresh.sound {history : History} {ledger : Ledger} {row : RunRow}
    (fresh : Fresh ledger row) (now : Time) :
    Sound history (.start ledger row now) := by
  have none : history.upTo 0 = [] := by
    rw [Numbered.upTo, filter_eq_nil_iff]
    intro frame mem
    have := history.positive frame mem
    simp
    omega
  refine Holds.sound row
    ⟨fresh.found, fresh.live, ?_, .of row⟩ fun _ => trivial
  show StoredOnce history row (ledger.events row.runId)
    (ledger.events row.runId)
  rw [fresh.events]
  constructor
  · rw [fresh.silent, fresh.unread, none]
    rfl
  · rw [fresh.unread, none]
    rfl
  · exact .nil
  · simp
  · simp
  · rfl

/--
Whatever connections drop, whatever transactions fail and however often the
process restarts, the ledger tells of a live run exactly what the frames up
to `last_seq` told, and each of them once.
-/
theorem streamed_output_stored_once (history : History)
    (timing : WatcherTiming) {ledger : Ledger} {row : RunRow} {now : Time}
    {actions : List WatchAction} {watch : Watch} (fresh : Fresh ledger row)
    (run : Run (Watch.step timing) (Yields history)
      (.start ledger row now) actions watch) :
    ∀ current, watch.ledger.getRun row.runId = some current →
      current.isLive = true →
        StoredOnce history current watch.stored
          (watch.ledger.events row.runId) := by
  have sound : Sound history watch ∧ watch.tail.runId = row.runId := by
    refine run.invariant
      (fun watch => Sound history watch ∧ watch.tail.runId = row.runId)
      ⟨fresh.sound now, rfl⟩ ?_
    intro state action next holds yields moved
    exact ⟨holds.1.step yields moved,
      (Watch.runId_of_step moved).trans holds.2⟩
  intro current found live
  rw [← sound.2] at found ⊢
  exact sound.1.once current found live

/-- Two pieces of output, and a frame which is none. -/
def hel : Frame := { seq := 1, event := "message.delta", delta := some "Hel" }
def lo : Frame := { seq := 2, event := "message.delta", delta := some "lo" }
def tool : Frame := { seq := 3, event := "tool.started" }

/-- Two deltas and a tool event. -/
def greeting : History where
  items := [hel, lo, tool]
  ordered := by simp [hel, lo, tool]
  positive := by simp [hel, lo, tool]

theorem greeting_yields {watch : Watch} {frame : Frame} {now : Time}
    (held : frame ∈ greeting.items) (near : frame.seq ≤ watch.position + 1) :
    Yields greeting watch (.frame frame now) := by
  refine ⟨held, ?_⟩
  by_cases earlier : frame.seq ≤ watch.position
  · exact .inl earlier
  · exact .inr ⟨held, by omega, fun other _ later => by omega⟩

/-- The flush fails, Hermes repeats the frames, and the process restarts. -/
def greetingActions : List WatchAction :=
  [.connect, .frame hel 1, .frame lo 2, .frame tool 3, .write .fails 4,
    .check 5, .wake, .connect, .frame hel 6, .frame lo 6, .frame tool 6,
    .write .commits 7, .write .commits 8, .restart true 9]

/-- A greeting, stored through a reconnect. -/
theorem greeting_stored_once :
    ∃ watch current,
      Run (Watch.step {}) (Yields greeting)
        (.start codexLedger (freshRun "r1" "codex") 0) greetingActions
        watch ∧
      watch.ledger.getRun "r1" = some current ∧
      current.output = some "Hello" ∧ current.lastSeq = 3 ∧
      StoredOnce greeting current watch.stored
        (watch.ledger.events "r1") := by
  have first : hel ∈ greeting.items := by simp [greeting]
  have second : lo ∈ greeting.items := by simp [greeting]
  have third : tool ∈ greeting.items := by simp [greeting]
  have fresh : Fresh codexLedger (freshRun "r1" "codex") :=
    ⟨rfl, rfl, rfl, rfl, rfl⟩
  have run : ∃ watch current,
      Run (Watch.step {}) (Yields greeting)
        (.start codexLedger (freshRun "r1" "codex") 0) greetingActions
        watch ∧
      watch.ledger.getRun "r1" = some current ∧
      current.isLive = true ∧ current.output = some "Hello" ∧
      current.lastSeq = 3 := by
    refine ⟨_, _,
      .cons trivial rfl <|
      .cons (greeting_yields first (by decide)) rfl <|
      .cons (greeting_yields second (by decide)) rfl <|
      .cons (greeting_yields third (by decide)) rfl <|
      .cons trivial rfl <| .cons trivial rfl <| .cons trivial rfl <|
      .cons trivial rfl <|
      .cons (greeting_yields first (by decide)) rfl <|
      .cons (greeting_yields second (by decide)) rfl <|
      .cons (greeting_yields third (by decide)) rfl <|
      .cons trivial rfl <| .cons trivial rfl <| .cons trivial rfl <|
      .nil _, rfl, ?_, ?_, ?_⟩
    · decide
    · decide
    · decide
  obtain ⟨watch, current, reached, found, live, output, lastSeq⟩ := run
  exact ⟨watch, current, reached, found, output, lastSeq,
    streamed_output_stored_once greeting {} fresh reached current found
      live⟩

end Hal0.Bridge
