import Hal0.Bridge.RunCalls
import Hal0.Core.Numbered

/-!
# The watch loop of a run

The watcher of a run follows the event stream of Hermes into the ledger.  It
keeps the texts of `message.delta` frames in memory and stores them as one
event when enough has come, before any other frame, and when the stream ends;
every other frame is stored as it comes.

The loop stops between two of its awaits, so a step is one answer of Hermes or
one transaction of the ledger, and the other writers of the run, a restart of
the process and the pruning of old runs may come between any two.  A
transaction may fail, and then it writes nothing.
-/

namespace Hal0.Bridge

open Hal0.Mcp (ApprovalId Json)

/-! ## What a watcher holds -/

/-- `WatcherTiming`, as far as the loop reads it. -/
structure WatcherTiming where
  coalesce : Time := 2000
  coalesceBytes : Nat := 2048
  giveUp : Time := 1800000
  /-- `give_up_s` in seconds, as it is printed. -/
  giveUpText : String := "1800"

/-- `_Tail`: what a watcher holds of one run, beyond the row. -/
structure Tail where
  runId : RunId
  client : String
  agent : String
  profile : String
  lastSeq : Nat
  output : String
  buffer : List String := []
  bufferBytes : Nat := 0
  bufferFrom : Nat := 0
  bufferTo : Nat := 0
  bufferStarted : Time := 0

namespace Tail

/-- `_Tail.of` -/
def of (row : RunRow) : Tail where
  runId := row.runId
  client := row.client
  agent := row.agent
  profile := row.profile
  lastSeq := row.lastSeq
  output := row.output.getD ""

/-- `seen`: stored, or still in the buffer. -/
def seen (tail : Tail) : Nat := max tail.lastSeq tail.bufferTo

/-- Nothing is buffered. -/
def isFlushed (tail : Tail) : Bool := tail.bufferTo ≤ tail.lastSeq

/-- `_buffer_delta`, up to the flush. -/
def bufferDelta (tail : Tail) (seq : Nat) (text : String) (now : Time) :
    Tail :=
  let fresh := tail.bufferTo = 0 || tail.isFlushed
  { tail with
    buffer := tail.buffer ++ [text]
    bufferBytes := tail.bufferBytes + text.utf8ByteSize
    bufferFrom := if fresh then seq else tail.bufferFrom
    bufferTo := seq
    bufferStarted := if fresh then now else tail.bufferStarted }

/-- Enough text, or text which is old enough. -/
def isDue (tail : Tail) (timing : WatcherTiming) (now : Time) : Bool :=
  timing.coalesceBytes ≤ tail.bufferBytes ||
    timing.coalesce ≤ now - tail.bufferStarted

/-- The buffered deltas, joined. -/
def text (tail : Tail) : String := String.join tail.buffer

/-- The event in which the buffered text is stored. -/
def textEvent (tail : Tail) (now : Time) : StoredEvent :=
  ⟨tail.bufferTo, now, "message.text",
    .messageText tail.bufferFrom tail.text⟩

/-- What a flush sets on the row. -/
def textChanges (tail : Tail) (row : RunRow) : Changes where
  output := some (tail.output ++ tail.text)
  status := if row.status = .queued then some .running else none

/-- The tail after its text is stored. -/
def flushed (tail : Tail) : Tail :=
  { tail with
    output := tail.output ++ tail.text
    lastSeq := tail.bufferTo
    buffer := []
    bufferBytes := 0
    bufferTo := 0 }

end Tail

/-! ## Frames -/

namespace Frame

/-- The name of the event, or `unknown`. -/
def name (frame : Frame) : String :=
  if frame.event = "" then "unknown" else frame.event

/-- The frame carries a piece of the message. -/
def isDelta (frame : Frame) : Bool := frame.name = "message.delta"

/-- `delta if isinstance(delta, str) else ""` -/
def deltaText (frame : Frame) : String := frame.delta.getD ""

/-- `_TERMINAL_EVENTS` -/
def terminalStatus (frame : Frame) : Option RunStatus :=
  if frame.name = "run.completed" then some .completed
  else if frame.name = "run.failed" then some .failed
  else if frame.name = "run.cancelled" then some .cancelled
  else if frame.name = "run.interrupted" then some .interrupted
  else none

/-- A frame as it is stored. -/
def stored (frame : Frame) (now : Time) : StoredEvent :=
  ⟨frame.seq, frame.timestamp.getD now, frame.name, .frame frame⟩

/-- What `_approval_requested` and `_clarify_requested` set on the row. -/
def requestChanges (kind : RequestKind) (frame : Frame) (now : Time) :
    Changes where
  status := some
    (match kind with
    | .approval => .waitingForApproval
    | .clarify => .waitingForClarification)
  pending := some (some { kind := kind, frame := frame, receivedAt := now })
  executionGeneration := frame.executionGeneration

/-- A `*.settled` frame clears the request it settles. -/
def settledChanges (kind : RequestKind) (frame : Frame) (row : RunRow) :
    Changes :=
  if row.isPending kind frame.requestId then row.clearPending none else {}

/-- `_other_event` -/
def otherChanges (frame : Frame) (row : RunRow) : Changes :=
  if frame.name = "run.queued" then
    { status := if row.status = .queued then none else some .queued }
  else if frame.name = "run.stopping" then
    { status := if row.status = .stopping then none else some .stopping }
  else if frame.name = "approval.settled" then
    frame.settledChanges .approval row
  else if frame.name = "clarify.settled" then
    frame.settledChanges .clarify row
  else { status := if row.status = .queued then some .running else none }

/-- What a frame which does not end the run sets on the row. -/
def changes (frame : Frame) (now : Time) (row : RunRow) : Changes :=
  if frame.name = "approval.request" then frame.requestChanges .approval now
  else if frame.name = "clarify.request" then
    frame.requestChanges .clarify now
  else frame.otherChanges row

end Frame

/-- How a run ended: the arguments of `_finish`. -/
structure Ending where
  status : RunStatus
  terminal : status.isTerminal = true
  frame : Option Frame := none
  output : Option String := none
  usage : Option Json := none
  error : Option String := none

namespace Ending

/-- `_finish`: what the end of a run sets on the row. -/
def changes (ending : Ending) (tail : Tail) (row : RunRow) : Changes where
  status := some ending.status
  pending := some none
  pendingStop := some none
  output := (ending.output.or
    (if tail.output = "" then none else some tail.output)).or row.output
  usage := ending.usage
  error := some (ending.error.or row.error)

/-- The run ends without a known outcome. -/
def unknown (reason : String) : Ending where
  status := .unknown
  terminal := rfl
  error := some reason

/-- `_FORGOTTEN` -/
def forgotten : Ending := unknown "Hermes no longer knows this run"

def notReattached : Ending :=
  unknown "Hermes no longer knows this run (it ended or Hermes restarted)"

def lostContact (timing : WatcherTiming) : Ending :=
  unknown ("lost contact with Hermes for " ++ timing.giveUpText ++ "s")

/-- The end which a terminal frame announces. -/
def ofFrame (frame : Frame) (status : RunStatus)
    (terminal : status.isTerminal = true) : Ending where
  status := status
  terminal := terminal
  frame := some frame
  output := frame.output
  usage := frame.usage
  error := frame.error

end Ending

theorem Frame.terminal_of_terminalStatus {frame : Frame} {status : RunStatus}
    (ends : frame.terminalStatus = some status) :
    status.isTerminal = true := by
  unfold Frame.terminalStatus at ends
  split_ifs at ends <;> cases ends <;> rfl

/-- What Hermes answers when it is asked for a run. -/
inductive Snapshot where
  | refused (status : Nat)
  | unreachable
  | found (status : String) (output : Option String) (usage : Option Json)
      (error : Option String)

/-- `_finished_in_snapshot`: the end which an answer tells of. -/
def Snapshot.ending : Snapshot → Option Ending
  | .refused status => if status = 404 then some .forgotten else none
  | .unreachable => none
  | .found status output usage error =>
    if status = "unknown" then
      some (.unknown "Hermes reports the run's state as unknown")
    else if status = "completed" then
      some ⟨.completed, rfl, none, output, usage, error⟩
    else if status = "failed" then
      some ⟨.failed, rfl, none, output, usage, error⟩
    else if status = "cancelled" then
      some ⟨.cancelled, rfl, none, output, usage, error⟩
    else if status = "interrupted" then
      some ⟨.interrupted, rfl, none, output, usage, error⟩
    else none

/-! ## The places where the loop waits -/

/-- What `_flush` returns to. -/
inductive After where
  /-- Enough text had come. -/
  | stream
  /-- Another frame had come. -/
  | frame (frame : Frame)
  /-- The stream has ended quietly. -/
  | quiet
  /-- The handler of `HermesRefused`. -/
  | refused (status : Nat)
  /-- The handler of `HermesUnavailable`. -/
  | lost
  /-- The `_finish` of a watch which has lost contact for too long. -/
  | giveUp (ending : Ending)

/-- The flush stands in the body of the `try`. -/
def After.inBody : After → Bool
  | .stream | .frame _ | .quiet => true
  | .refused _ | .lost | .giveUp _ => false

/-- How a watch came to its end. -/
inductive Over where
  /-- `_finish` came through. -/
  | ended
  /-- The row of the run is gone. -/
  | gone
  /-- `stop_all` -/
  | stopped
  /-- The transaction of `_finish` failed. -/
  | unrecorded
  /-- A flush outside the body of the `try` failed. -/
  | unflushed
deriving DecidableEq

/-- Where the watcher waits. -/
inductive Point where
  | connecting
  | streaming
  | flushing (after : After)
  | recording (frame : Frame)
  | asking
  | finishing (ending : Ending) (inBody : Bool)
  | cycled
  | pausing
  | closed (reason : Over)

/-- How a write of the ledger ends. -/
inductive Fate where
  | commits
  | fails
deriving DecidableEq

/-- What a watcher can raise. -/
inductive Raised where
  | ledger
  | gone

/-- A watcher with its ledger. -/
structure Watch where
  ledger : Ledger
  tail : Tail
  point : Point
  progressed : Bool
  lastContact : Time
  /-- How far the present connection has come. -/
  position : Nat
  /-- How often the loop has asked for the stream. -/
  connections : Nat
  /-- Every event of the run which was ever stored, in the order of writing. -/
  stored : List StoredEvent

/-- The other writers of a run. -/
inductive Writer where
  | settle (requestId : String)
  | stopping (reported : Option String)
  | clarifyDeadline (requestId error : String)
  | stopDelivered
  | storeApprovalId (requestId : String) (approvalId : ApprovalId)

namespace Writer

/-- What another writer sets on a live row. -/
def changes (now : Time) : Writer → RunRow → Changes
  | .settle requestId, row => row.clearPending (some requestId)
  | .stopping reported, row => row.stopChanges (stopStatus reported)
  | .clarifyDeadline requestId error, row =>
    if row.isPending .clarify (some requestId) then
      { pending := some none
        error := some (some error)
        status := some .stopping
        pendingStop := some (some now) }
    else {}
  | .stopDelivered, row =>
    if row.pendingStop.isSome then { pendingStop := some none } else {}
  | .storeApprovalId requestId approvalId, row =>
    match row.pending with
    | none => {}
    | some pending =>
      if pending.kind ≠ .approval || pending.requestId ≠ some requestId ||
          pending.approvalId = some approvalId then {}
      else
        { pending :=
            some (some { pending with approvalId := some approvalId }) }

end Writer

/-- A step of the watcher, or of what is around it. -/
inductive WatchAction where
  | connect
  /-- The stream yields a frame. -/
  | frame (frame : Frame) (now : Time)
  | quietEnd
  | refused (status : Nat)
  /-- `HermesUnavailable`, or no key for the profile. -/
  | unavailable
  /-- Any other exception out of the body. -/
  | broken
  /-- The transaction at which the loop waits. -/
  | write (fate : Fate) (now : Time)
  | snapshot (answer : Snapshot)
  /-- The end of a cycle: has contact been lost for too long? -/
  | check (now : Time)
  | wake
  | stopAll
  /-- A new process re-attaches the run; Hermes may not know it any more. -/
  | restart (known : Bool) (now : Time)
  | other (writer : Writer) (now : Time)
  | prune (olderThan : Time)

namespace Watch

/-! ## The transactions -/

/-- `_flush` -/
def flush (watch : Watch) (fate : Fate) (now : Time) : Except Raised Watch :=
  if watch.tail.isFlushed then .ok watch
  else
    match fate with
    | .fails => .error .ledger
    | .commits =>
      match watch.ledger.record watch.tail.runId
          (some (watch.tail.textEvent now)) watch.tail.textChanges false
          now with
      | none => .error .gone
      | some recorded =>
        .ok { watch with
          ledger := recorded.ledger
          tail := watch.tail.flushed
          stored := watch.stored ++ [watch.tail.textEvent now] }

/-- The write of a frame which does not end the run. -/
def recordFrame (watch : Watch) (frame : Frame) (fate : Fate) (now : Time) :
    Except Raised Watch :=
  match fate with
  | .fails => .error .ledger
  | .commits =>
    match watch.ledger.record watch.tail.runId (some (frame.stored now))
        (frame.changes now) false now with
    | none => .error .gone
    | some recorded =>
      .ok { watch with
        ledger := recorded.ledger
        tail := { watch.tail with lastSeq := frame.seq }
        stored := watch.stored ++ [frame.stored now] }

/-- The write of `_finish`; a run which is over or gone is left alone. -/
def finish (watch : Watch) (ending : Ending) (fate : Fate) (now : Time) :
    Except Raised Watch :=
  match fate with
  | .fails => .error .ledger
  | .commits =>
    let event := ending.frame.map fun frame => frame.stored now
    match watch.ledger.record watch.tail.runId event
        (ending.changes watch.tail) true now with
    | none => .ok watch
    | some recorded =>
      .ok { watch with
        ledger := recorded.ledger
        stored := watch.stored ++ event.toList }

/-! ## Control -/

def goTo (watch : Watch) (point : Point) : Watch :=
  { watch with point := point }

/-- `except BridgeError` and `except Exception` around the body. -/
def caught (watch : Watch) : Raised → Watch
  | .ledger => watch.goTo .cycled
  | .gone => watch.goTo (.closed .gone)

/-- Where a frame which is not a delta is written. -/
def writeOf (frame : Frame) : Point :=
  match ends : frame.terminalStatus with
  | none => .recording frame
  | some status =>
    .finishing
      (.ofFrame frame status (Frame.terminal_of_terminalStatus ends)) true

/-- What comes after a flush. -/
def afterFlush (watch : Watch) (now : Time) : After → Watch
  | .stream => { watch with point := .streaming, progressed := true }
  | .frame frame => watch.goTo (writeOf frame)
  | .quiet =>
    { watch with
      point := if watch.progressed then .cycled else .asking
      lastContact := now }
  | .refused status =>
    watch.goTo
      (if status = 404 then .finishing .forgotten false else .cycled)
  | .lost => watch.goTo .cycled
  | .giveUp ending => watch.goTo (.finishing ending false)

section Steps

variable (timing : WatcherTiming)

/-- `_on_event` -/
def onEvent (watch : Watch) (frame : Frame) (now : Time) : Watch :=
  let watch :=
    { watch with
      lastContact := now
      position := max watch.position frame.seq }
  if frame.seq ≤ watch.tail.seen then watch
  else if frame.isDelta then
    let tail := watch.tail.bufferDelta frame.seq frame.deltaText now
    if tail.isDue timing now then
      { watch with tail := tail, point := .flushing .stream }
    else { watch with tail := tail, progressed := true }
  else watch.goTo (.flushing (.frame frame))

/-- The transaction at which the loop waits. -/
def write (watch : Watch) (fate : Fate) (now : Time) : Option Watch :=
  match watch.point with
  | .flushing after =>
    some
      (match watch.flush fate now with
      | .ok flushed => flushed.afterFlush now after
      | .error raised =>
        if after.inBody then watch.caught raised
        else watch.goTo (.closed .unflushed))
  | .recording frame =>
    some
      (match watch.recordFrame frame fate now with
      | .ok written =>
        { written with point := .streaming, progressed := true }
      | .error raised => watch.caught raised)
  | .finishing ending inBody =>
    some
      (match watch.finish ending fate now with
      | .ok finished => finished.goTo (.closed .ended)
      | .error raised =>
        if inBody then watch.caught raised
        else watch.goTo (.closed .unrecorded))
  | _ => none

/-- A new process takes the run up from its row, if it is live. -/
def restart (watch : Watch) (known : Bool) (now : Time) : Option Watch :=
  (watch.ledger.getRun watch.tail.runId).bind fun row =>
    if row.isLive then
      some { watch with
        tail := .of row
        point :=
          if known then .connecting else .finishing .notReattached false
        lastContact := now }
    else none

/-- One step, where the watcher is at its point. -/
def step (watch : Watch) : WatchAction → Option Watch
  | .connect =>
    match watch.point with
    | .connecting =>
      some { watch with
        point := .streaming
        progressed := false
        position := watch.tail.lastSeq
        connections := watch.connections + 1 }
    | _ => none
  | .frame frame now =>
    match watch.point with
    | .streaming => some (watch.onEvent timing frame now)
    | _ => none
  | .quietEnd =>
    match watch.point with
    | .streaming => some (watch.goTo (.flushing .quiet))
    | _ => none
  | .refused status =>
    match watch.point with
    | .streaming => some (watch.goTo (.flushing (.refused status)))
    | _ => none
  | .unavailable =>
    match watch.point with
    | .streaming => some (watch.goTo (.flushing .lost))
    | _ => none
  | .broken =>
    match watch.point with
    | .streaming => some (watch.goTo .cycled)
    | _ => none
  | .write fate now => watch.write fate now
  | .snapshot answer =>
    match watch.point with
    | .asking =>
      some (watch.goTo
        (match answer.ending with
        | none => .cycled
        | some ending => .finishing ending true))
    | _ => none
  | .check now =>
    match watch.point with
    | .cycled =>
      some (watch.goTo
        (if timing.giveUp ≤ now - watch.lastContact then
          .flushing (.giveUp (.lostContact timing))
        else .pausing))
    | _ => none
  | .wake =>
    match watch.point with
    | .pausing => some (watch.goTo .connecting)
    | _ => none
  | .stopAll =>
    match watch.point with
    | .closed _ => none
    | _ => some (watch.goTo (.closed .stopped))
  | .restart known now => watch.restart known now
  | .other writer now =>
    some { watch with
      ledger := (watch.ledger.updateLive watch.tail.runId
        (writer.changes now) now).1 }
  | .prune olderThan =>
    some { watch with ledger := watch.ledger.pruneRuns olderThan }

/-- A run which Hermes has accepted is given to the watcher. -/
def start (ledger : Ledger) (row : RunRow) (now : Time) : Watch where
  ledger := ledger
  tail := .of row
  point := .connecting
  progressed := false
  lastContact := now
  position := row.lastSeq
  connections := 0
  stored := ledger.events row.runId

end Steps

/-! ## The run stays the same -/

section RunId

variable {timing : WatcherTiming} {watch next : Watch} {fate : Fate}
  {now : Time}

/-- A transaction keeps the run and opens no connection. -/
structure Keeps (watch next : Watch) : Prop where
  runId : next.tail.runId = watch.tail.runId
  connections : next.connections = watch.connections

/-- A flush writes its own run only. -/
theorem Keeps.flush (done : watch.flush fate now = .ok next) :
    watch.Keeps next := by
  unfold Watch.flush at done
  split at done
  · cases done
    exact ⟨rfl, rfl⟩
  · cases fate with
    | fails => cases done
    | commits =>
      simp only at done
      split at done
      · cases done
      · cases done
        exact ⟨rfl, rfl⟩

theorem Keeps.recordFrame {frame : Frame}
    (done : watch.recordFrame frame fate now = .ok next) :
    watch.Keeps next := by
  unfold Watch.recordFrame at done
  cases fate with
  | fails => cases done
  | commits =>
    simp only at done
    split at done
    · cases done
    · cases done
      exact ⟨rfl, rfl⟩

theorem Keeps.finish {ending : Ending}
    (done : watch.finish ending fate now = .ok next) :
    watch.Keeps next := by
  unfold Watch.finish at done
  cases fate with
  | fails => cases done
  | commits =>
    simp only at done
    split at done <;> cases done <;> exact ⟨rfl, rfl⟩

theorem Keeps.goTo (keeps : watch.Keeps next) (point : Point) :
    watch.Keeps (next.goTo point) :=
  ⟨keeps.runId, keeps.connections⟩

theorem Keeps.caught (raised : Raised) : watch.Keeps (watch.caught raised) := by
  cases raised <;> exact ⟨rfl, rfl⟩

theorem Keeps.afterFlush (keeps : watch.Keeps next) (after : After) :
    watch.Keeps (next.afterFlush now after) := by
  cases after <;> exact ⟨keeps.runId, keeps.connections⟩

/-- So does every write. -/
theorem Keeps.write (done : watch.write fate now = some next) :
    watch.Keeps next := by
  unfold Watch.write at done
  cases place : watch.point with
  | flushing after =>
    simp only [place, Option.some.injEq] at done
    subst done
    cases result : watch.flush fate now with
    | ok flushed => exact (Keeps.flush result).afterFlush after
    | error raised =>
      simp only
      split
      · exact .caught raised
      · exact ⟨rfl, rfl⟩
  | recording frame =>
    simp only [place, Option.some.injEq] at done
    subst done
    cases result : watch.recordFrame frame fate now with
    | ok written =>
      have keeps := Keeps.recordFrame result
      exact ⟨keeps.runId, keeps.connections⟩
    | error raised => exact .caught raised
  | finishing ending inBody =>
    simp only [place, Option.some.injEq] at done
    subst done
    cases result : watch.finish ending fate now with
    | ok finished => exact (Keeps.finish result).goTo _
    | error raised =>
      simp only
      split
      · exact .caught raised
      · exact ⟨rfl, rfl⟩
  | connecting => simp [place] at done
  | streaming => simp [place] at done
  | asking => simp [place] at done
  | cycled => simp [place] at done
  | pausing => simp [place] at done
  | closed reason => simp [place] at done

theorem Keeps.onEvent (frame : Frame) :
    watch.Keeps (watch.onEvent timing frame now) := by
  unfold Watch.onEvent
  simp only
  split
  · exact ⟨rfl, rfl⟩
  · split
    · split <;> exact ⟨rfl, rfl⟩
    · exact ⟨rfl, rfl⟩

theorem runId_of_restart {known : Bool}
    (done : watch.restart known now = some next) :
    next.tail.runId = watch.tail.runId := by
  unfold restart at done
  cases found : watch.ledger.getRun watch.tail.runId with
  | none => simp [found] at done
  | some row =>
    rw [found, Option.bind_some] at done
    split at done
    · cases done
      exact Ledger.runId_of_getRun found
    · cases done

/-- A watcher stays with its run. -/
theorem runId_of_step {action : WatchAction}
    (moved : watch.step timing action = some next) :
    next.tail.runId = watch.tail.runId := by
  cases action with
  | write fate now => exact (Keeps.write moved).runId
  | restart known now => exact runId_of_restart moved
  | frame frame now =>
    simp only [step] at moved
    split at moved
    · cases moved
      exact (Keeps.onEvent frame).runId
    · cases moved
  | other writer now =>
    cases moved
    rfl
  | prune olderThan =>
    cases moved
    rfl
  | stopAll =>
    simp only [step] at moved
    split at moved <;> cases moved
    rfl
  | _ =>
    simp only [step] at moved
    split at moved <;> cases moved
    rfl

end RunId

end Watch

end Hal0.Bridge
