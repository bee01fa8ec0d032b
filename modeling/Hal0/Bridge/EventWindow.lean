import Hal0.Bridge.Ledger
import Hal0.Core.Windows

/-!
# The window on the events of a run

The ledger keeps the newest events of a run, however they arrive: repeated,
out of order, or from below what has already been pruned.  After any calls it
holds the highest sequence numbers there have been, each with what was last
stored for it.
-/

namespace Hal0.Bridge

open List
open Hal0.Latest (IsLatest)
open Hal0.Windows

/-! ## Calls which write events -/

/-- `append_event`: an unknown run is refused. -/
def Ledger.appendTo (ledger : Ledger) (runId : RunId)
    (event : StoredEvent) : Option Ledger :=
  (ledger.getRun runId).map fun _ => ledger.storeEvent runId event

/-- A call which may store an event of a run. -/
inductive EventCall where
  | appendEvent (event : StoredEvent)
  | record (event : Option StoredEvent) (decide : RunRow → Changes)
      (skipTerminal : Bool) (now : Time)

/-- A call, with the events it has appended. -/
def EventCall.play (ledger : Ledger) (runId : RunId) :
    EventCall → Ledger × List StoredEvent
  | .appendEvent event =>
    match ledger.appendTo runId event with
    | none => (ledger, [])
    | some stored => (stored, [event])
  | .record event decide skipTerminal now =>
    match ledger.record runId event decide skipTerminal now with
    | none => (ledger, [])
    | some recorded => (recorded.ledger, event.toList)

/-- Calls one after the other, with all the events they have appended. -/
def playAll (ledger : Ledger) (runId : RunId) :
    List EventCall → Ledger × List StoredEvent
  | [] => (ledger, [])
  | call :: later =>
    let played := call.play ledger runId
    let rest := playAll played.1 runId later
    (rest.1, played.2 ++ rest.2)

/-- `events`, page after page, each from the last event of the one before. -/
def readEvents (ledger : Ledger) (runId : RunId) (limit : Nat) :
    Nat → Nat → Option (List StoredEvent)
  | 0, _ => none
  | reads + 1, sinceSeq =>
    let page := ledger.eventsSince runId sinceSeq limit
    match page.getLast? with
    | none => some page
    | some last =>
      (readEvents ledger runId limit reads last.seq).map (page ++ ·)

/-! ## What a call leaves -/

/-- What calls on a run have done with the events they appended. -/
structure Appends (ledger : Ledger) (runId : RunId) (row : RunRow)
    (played : Ledger × List StoredEvent) : Prop where
  events : played.1.events runId =
    played.2.foldl appendEvent (ledger.events runId)
  row : ∃ after, played.1.getRun runId = some after ∧
    after.lastSeq = (played.2.map StoredEvent.seq).foldl max row.lastSeq
  others : ∀ other, other ≠ runId →
    played.1.events other = ledger.events other ∧
      played.1.getRun other = ledger.getRun other

section

variable {ledger : Ledger} {runId : RunId} {row : RunRow}

theorem Appends.none (found : ledger.getRun runId = some row) :
    Appends ledger runId row (ledger, []) :=
  ⟨rfl, ⟨row, found, rfl⟩, fun _ _ => ⟨rfl, rfl⟩⟩

theorem getRun_setRun_of_ne {change : RunRow → RunRow} {other : RunId}
    (differs : other ≠ runId) :
    (ledger.setRun runId change).getRun other = ledger.getRun other := by
  rw [Ledger.getRun_setRun]
  simp [differs]

theorem others_storeEvent {event : StoredEvent} {other : RunId}
    (differs : other ≠ runId) :
    (ledger.storeEvent runId event).events other = ledger.events other ∧
      (ledger.storeEvent runId event).getRun other = ledger.getRun other :=
  ⟨Function.update_of_ne differs _ _, getRun_setRun_of_ne differs⟩

/-- The rows of the other runs stay. -/
theorem others_record {event : Option StoredEvent}
    {decide : RunRow → Changes} {skipTerminal : Bool} {now : Time}
    {recorded : Ledger.Recorded} {other : RunId} (differs : other ≠ runId)
    (done : ledger.record runId event decide skipTerminal now =
      some recorded) :
    recorded.ledger.events other = ledger.events other ∧
      recorded.ledger.getRun other = ledger.getRun other := by
  have stored : ((event.map (ledger.storeEvent runId)).getD
      ledger).events other = ledger.events other ∧
      ((event.map (ledger.storeEvent runId)).getD ledger).getRun other =
        ledger.getRun other := by
    cases event with
    | none => exact ⟨rfl, rfl⟩
    | some event => exact others_storeEvent differs
  rw [Ledger.record] at done
  cases found : ledger.getRun runId with
  | none =>
    rw [found] at done
    cases done
  | some before =>
    rw [found, Option.bind_some] at done
    split at done
    · cases done
    · obtain rfl := Option.some.inj done
      dsimp only
      split
      · exact stored
      · exact ⟨stored.1, (getRun_setRun_of_ne differs).trans stored.2⟩

/-- One call. -/
theorem Appends.play (found : ledger.getRun runId = some row)
    (call : EventCall) :
    Appends ledger runId row (call.play ledger runId) := by
  cases call with
  | appendEvent event =>
    rw [EventCall.play, Ledger.appendTo, found, Option.map_some]
    dsimp only
    refine ⟨?_, ?_, fun other differs => others_storeEvent differs⟩
    · rw [foldl_cons, foldl_nil]
      exact Ledger.events_storeEvent event
    refine ⟨{ row with lastSeq := max row.lastSeq event.seq }, ?_, rfl⟩
    rw [Ledger.getRun_storeEvent, found, Option.map_some]
  | record event decide skipTerminal now =>
    rw [EventCall.play]
    cases done : ledger.record runId event decide skipTerminal now with
    | none => exact Appends.none found
    | some recorded =>
      have records := Ledger.record_eq_some done
      obtain rfl : row = recorded.before :=
        Option.some.inj (found.symm.trans records.found)
      refine ⟨?_, ⟨_, records.row, ?_⟩,
        fun other differs => others_record differs done⟩
      · rw [records.events]
        cases event with
        | none => rfl
        | some event =>
          rw [Ledger.eventsAfter, Option.toList_some, foldl_cons,
            foldl_nil]
      · rw [Ledger.rowAfter_lastSeq]
        cases event <;> rfl

/-- Any calls, one after another. -/
theorem Appends.playAll (found : ledger.getRun runId = some row)
    (calls : List EventCall) :
    Appends ledger runId row (playAll ledger runId calls) := by
  induction calls generalizing ledger row with
  | nil => exact Appends.none found
  | cons call later ih =>
    have played := Appends.play found call
    obtain ⟨after, isAfter, raised⟩ := played.row
    have rest := ih isAfter
    obtain ⟨final, isFinal, raisedOn⟩ := rest.row
    refine ⟨?_, ⟨final, isFinal, ?_⟩, fun other differs => ?_⟩
    · rw [Bridge.playAll, rest.events, played.events, foldl_append]
    · rw [raisedOn, raised, Bridge.playAll, map_append, foldl_append]
    · exact ⟨(rest.others other differs).1.trans
          (played.others other differs).1,
        (rest.others other differs).2.trans (played.others other differs).2⟩

/-! ## Paging -/

/-- Paging returns every later row, in order. -/
theorem readEvents_eq {limit : Nat} (positive : 0 < limit)
    (ordered : Ordered StoredEvent.seq (ledger.events runId))
    {reads sinceSeq : Nat}
    (enough : ((ledger.events runId).filter fun event =>
      sinceSeq < event.seq).length < reads) :
    readEvents ledger runId limit reads sinceSeq =
      some ((ledger.events runId).filter fun event =>
        sinceSeq < event.seq) := by
  induction reads generalizing sinceSeq with
  | zero => exact absurd enough (Nat.not_lt_zero _)
  | succ reads ih =>
    rw [readEvents, Ledger.eventsSince]
    generalize isAbove : ((ledger.events runId).filter fun event =>
      sinceSeq < event.seq) = above at enough
    have aboveOrdered : Ordered StoredEvent.seq above :=
      isAbove ▸ ordered.filter _
    cases isLast : (above.take limit).getLast? with
    | none =>
      have noPage := getLast?_eq_none_iff.mp isLast
      have isEmpty : above = [] := by
        rcases take_eq_nil_iff.mp noPage with isZero | isEmpty
        · exact absurd isZero positive.ne'
        · exact isEmpty
      simp [isEmpty]
    | some last =>
      have parts := take_append_drop limit above
      have isMember : last ∈ above :=
        mem_of_mem_take (mem_of_getLast? isLast)
      have lastAbove : sinceSeq < last.seq := by
        rw [← isAbove] at isMember
        simpa using (mem_filter.mp isMember).2
      have rest : ((ledger.events runId).filter fun event =>
          last.seq < event.seq) = above.drop limit := by
        have fromAbove : ((ledger.events runId).filter fun event =>
            last.seq < event.seq) =
            above.filter fun event => last.seq < event.seq := by
          rw [← isAbove, filter_filter]
          refine filter_congr fun event _ => ?_
          have : last.seq < event.seq → sinceSeq < event.seq :=
            lastAbove.trans
          by_cases later : last.seq < event.seq <;> simp [later, this]
        rw [fromAbove]
        have ordered' := aboveOrdered
        rw [← parts] at ordered'
        have := filter_above_last ordered' isLast
        rwa [parts] at this
      have fewer : (above.drop limit).length < reads := by
        rw [length_drop]
        have := length_pos_of_mem isMember
        omega
      dsimp only
      rw [ih (by rw [rest]; exact fewer), rest, Option.map_some, parts]

end

/-! ## After any calls -/

/-- What the ledger holds of a run after events have been appended to it. -/
structure HoldsWindow (before : Ledger) (runId : RunId) (row : RunRow)
    (ledger : Ledger) (appended : List StoredEvent) : Prop where
  rows : ∀ event, event ∈ ledger.events runId ↔
    IsLatest (fun other => other.seq = event.seq) appended event ∧
      ((appended.map StoredEvent.seq).toFinset.filter
        (event.seq < ·)).card < eventCap
  ordered : (ledger.events runId).Pairwise fun left right =>
    left.seq < right.seq
  lastSeq : ∃ after, ledger.getRun runId = some after ∧
    after.lastSeq =
      (appended.map StoredEvent.seq).foldl max row.lastSeq
  others : ∀ other, other ≠ runId →
    ledger.events other = before.events other ∧
      ledger.getRun other = before.getRun other
  paged : ∀ limit, 0 < limit → ∃ reads,
    readEvents ledger runId limit reads 0 =
      some ((ledger.events runId).filter fun event => 0 < event.seq)

/--
After any calls on a run which starts without events, its rows are the
highest sequence numbers ever appended, as many as the cap, each with its last
event; and paging from 0 reads those above 0, once each and in order.
-/
theorem holdsWindow_playAll {ledger : Ledger} {runId : RunId} {row : RunRow}
    (found : ledger.getRun runId = some row)
    (fresh : ledger.events runId = []) (calls : List EventCall) :
    HoldsWindow ledger runId row (playAll ledger runId calls).1
      (playAll ledger runId calls).2 := by
  have appends := Appends.playAll found calls
  generalize playAll ledger runId calls = played at appends
  have stored : played.1.events runId =
      newest eventCap (putAll StoredEvent.seq [] played.2) := by
    have pruned : played.2.foldl (fun kept event =>
        newest eventCap (put StoredEvent.seq kept event))
          (newest eventCap []) =
        newest eventCap (putAll StoredEvent.seq [] played.2) :=
      foldl_newest_put List.Pairwise.nil
    rw [appends.events, fresh]
    exact pruned
  have ordered : Ordered StoredEvent.seq (played.1.events runId) := by
    rw [stored]
    exact ordered_newest (ordered_putAll List.Pairwise.nil)
  refine ⟨fun event => ?_, ordered, appends.row, appends.others,
    fun limit positive => ⟨_, readEvents_eq positive ordered
      (Nat.lt_succ_self _)⟩⟩
  rw [stored]
  exact mem_newest_putAll

/-- A ledger with one run, which has no events yet. -/
def oneRun : Ledger where
  runs :=
    [{ runId := "run_1"
       client := "cc"
       agent := "hermes"
       profile := "default"
       sessionKey := none
       status := .running
       createdAt := 0
       updatedAt := 0
       inputPreview := "hello"
       output := none
       error := none
       usage := none
       admissionId := none
       executionGeneration := none
       pending := none
       lastSeq := 0 }]
  events := fun _ => []
  unique := by simp

/-- A tool event with its number as time. -/
def toolStarted (seq : Nat) : StoredEvent :=
  { seq, ts := seq, event := "tool.started",
    payload := .frame { seq, event := "tool.started" } }

/-- Three rows out of order, one of them twice. -/
theorem holdsWindow_replayed :
    ∃ row, HoldsWindow oneRun "run_1" row
      (playAll oneRun "run_1" [.appendEvent (toolStarted 5),
        .appendEvent (toolStarted 3), .appendEvent (toolStarted 5)]).1
      (playAll oneRun "run_1" [.appendEvent (toolStarted 5),
        .appendEvent (toolStarted 3), .appendEvent (toolStarted 5)]).2 :=
  ⟨_, holdsWindow_playAll rfl rfl _⟩

/-- An event numbered 0 is stored, and paging from 0 passes it over. -/
theorem zero_not_paged :
    ((playAll oneRun "run_1" [.appendEvent (toolStarted 0)]).1.events
        "run_1").map StoredEvent.seq = [0] ∧
      ∀ limit reads,
        readEvents (playAll oneRun "run_1"
          [.appendEvent (toolStarted 0)]).1 "run_1" limit (reads + 1) 0 =
            some [] := by
  have stored : (playAll oneRun "run_1"
      [.appendEvent (toolStarted 0)]).1.events "run_1" = [toolStarted 0] :=
    rfl
  refine ⟨by rw [stored]; rfl, fun limit reads => ?_⟩
  have none : (playAll oneRun "run_1"
      [.appendEvent (toolStarted 0)]).1.eventsSince "run_1" 0 limit = [] := by
    rw [Ledger.eventsSince, stored]
    exact take_nil
  rw [readEvents, none]
  rfl

end Hal0.Bridge
