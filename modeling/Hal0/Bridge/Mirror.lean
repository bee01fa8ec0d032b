import Hal0.Bridge.Watch

/-!
# The approvals of a run, in the ledger and in the inbox

A run which waits for an approval shows the request in its ledger row, and
the watcher mirrors it into the operator's inbox.  The two stores are kept in
step by hand: by the watcher when a request comes, is settled or superseded,
by the end of the run, by a stop, by the decisions of the operator when they
reach Hermes or fail, and by the re-attachment after a restart.

Everything here is about one run.  Its writers are tasks; a transaction of
the ledger or a call of the inbox is one turn, and a turn which needs the
lock of the run is open only while the lock is free.  The inbox keeps one
undecided entry for each run, so what it holds of the run is a list of
entries of which at most one is pending.
-/

namespace Hal0.Bridge

open Hal0.Transition
open Hal0.Mcp (ApprovalId)
open Hal0.Tasks (TaskId)

/-! ## The inbox of a run -/

/-- A row of the inbox, as far as it mirrors a run. -/
structure InboxEntry where
  id : ApprovalId
  requestId : String
  generation : Option Int
  pending : Bool
deriving DecidableEq

/-- The rows about one run, oldest first. -/
structure RunInbox where
  entries : List InboxEntry
  /-- The next id to be drawn. -/
  next : ApprovalId

namespace RunInbox

def pendingEntries (inbox : RunInbox) : List InboxEntry :=
  inbox.entries.filter InboxEntry.pending

/-- `enqueue`: the run's pending entry is hit again, or a new one is made. -/
def enqueue (inbox : RunInbox) (requestId : String)
    (generation : Option Int) : RunInbox × ApprovalId :=
  match inbox.pendingEntries with
  | entry :: _ => (inbox, entry.id)
  | [] =>
    (⟨inbox.entries ++ [⟨inbox.next, requestId, generation, true⟩],
      inbox.next + 1⟩, inbox.next)

/-- An entry is decided or withdrawn; it is pending no more. -/
def resolve (inbox : RunInbox) (id : ApprovalId) : RunInbox :=
  { inbox with
    entries := inbox.entries.map fun entry =>
      if entry.id = id then { entry with pending := false } else entry }

/-- `_withdraw`: without an id there is nothing to withdraw. -/
def withdraw (inbox : RunInbox) : Option ApprovalId → RunInbox
  | none => inbox
  | some id => inbox.resolve id

end RunInbox

/-! ## The tasks of a run -/

/-- Where a task of the run is suspended. -/
inductive MirrorPc where
  /-- The watcher follows the stream. -/
  | watching
  /-- `_approval_requested`: before the lock, and under it. -/
  | requesting (frame : Frame)
  | retiring (frame : Frame) (id : Option ApprovalId)
  | recording (frame : Frame)
  /-- `_file_in_inbox`, of the watcher or of `_refile`. -/
  | filing (pending : Pending) (watches : Bool)
  | storing (requestId : String) (id : ApprovalId) (watches : Bool)
  /-- `_withdraw`, after the lock was given back. -/
  | withdrawing (id : Option ApprovalId) (watches : Bool)
  /-- `_finish`, of the watcher or of `mark_unknown`. -/
  | ending (ending : Ending) (tail : Tail) (watches : Bool)
  | retiringEnd (ending : Ending) (tail : Tail) (watches : Bool)
      (id : Option ApprovalId)
  | writingEnd (ending : Ending) (tail : Tail) (watches : Bool)
  /-- `_answer_approval`: a decision of the operator. -/
  | answering (id : ApprovalId) (requestId : String)
      (generation : Option Int)
  | posting (requestId : String)
  | settling (requestId : String)
  | refiling (requestId : String)
  /-- `stopping` -/
  | stopping (reported : Option String)
  /-- `reattach` -/
  | reattaching
  | probing (row : RunRow)
  | attaching (row : RunRow)

/-- What Hermes answers to a decision. -/
inductive PostOutcome where
  | accepted
  /-- 409: the request is not pending any more. -/
  | noLongerPending
  | failed
  | cancelled
deriving DecidableEq

/-- What a waiting task is answered. -/
inductive MirrorReply where
  | turn (now : Time)
  /-- The watcher stores the text it has buffered. -/
  | flush (tail : Tail) (now : Time)
  /-- The watcher is given a frame which neither is a delta nor ends the run. -/
  | frame (frame : Frame) (now : Time)
  /-- The watcher comes to the end of the run. -/
  | ends (ending : Ending) (tail : Tail)
  | posted (outcome : PostOutcome)
  | probed (known : Bool)

/-- The writers which need one transaction only. -/
inductive MirrorEvent where
  /-- `answer_run` has reached Hermes. -/
  | settle (requestId : String) (now : Time)
  | clarifyDeadline (requestId error : String) (now : Time)
  | stopDelivered (now : Time)

/-- What the tasks of a run share. -/
structure Mirror where
  row : RunRow
  inbox : RunInbox
  /-- The lock of the run. -/
  lock : Option TaskId
  /-- The watcher of the run, or the re-attachment which has reserved it. -/
  claimed : Option TaskId
  /-- The requests of which a decision came to its end for good. -/
  spent : List String

namespace Mirror

def release (mirror : Mirror) : Mirror := { mirror with lock := none }

/-- A task goes on under the lock, if it is free. -/
def locking (mirror : Mirror) (task : TaskId) (next : MirrorPc) :
    Option (Mirror × Option MirrorPc) :=
  match mirror.lock with
  | some _ => none
  | none => some ({ mirror with lock := some task }, some next)

/-- A transaction which writes to a run in any state. -/
def write (mirror : Mirror) (event : Option StoredEvent)
    (decide : RunRow → Changes) (now : Time) : Mirror :=
  { mirror with
    row := Ledger.rowAfter mirror.row event (decide mirror.row) now }

/-- A transaction which leaves a run that is over alone. -/
def writeLive (mirror : Mirror) (event : Option StoredEvent)
    (decide : RunRow → Changes) (now : Time) : Mirror :=
  if mirror.row.isLive then mirror.write event decide now else mirror

/-- The inbox id that the run's request has. -/
def approvalId (mirror : Mirror) : Option ApprovalId :=
  mirror.row.pending.bind Pending.approvalId

/-- A watcher goes on; any other task is done. -/
def afterwards (watches : Bool) : Option MirrorPc :=
  if watches then some .watching else none

/-- `_other_event` and `_clarify_requested` withdraw what they superseded. -/
def supersedes (frame : Frame) (row : RunRow) : Bool :=
  (frame.name = "clarify.request" && row.isPending .approval none) ||
    (frame.name = "approval.settled" &&
      row.isPending .approval frame.requestId)

/-- The watcher, given a frame. -/
def onFrame (mirror : Mirror) (frame : Frame) (now : Time) :
    Option (Mirror × Option MirrorPc) :=
  if frame.isDelta || frame.terminalStatus.isSome then none
  else if frame.name = "approval.request" then
    some (mirror, some (.requesting frame))
  else
    match mirror.lock with
    | some _ => none
    | none =>
      some (mirror.write (some (frame.stored now)) (frame.changes now) now,
        some (if supersedes frame mirror.row then
          .withdrawing mirror.approvalId true else .watching))

/-- The request which a newer one retires. -/
def superseded (frame : Frame) (row : RunRow) : Option Pending :=
  row.pending.filter fun prior =>
    prior.kind = .approval && prior.requestId ≠ frame.requestId

/-- A turn of a task. -/
def turn (mirror : Mirror) (task : TaskId) (pc : MirrorPc) (now : Time) :
    Option (Mirror × Option MirrorPc) :=
  match pc with
  | .requesting frame =>
    mirror.locking task
      (match superseded frame mirror.row with
      | some prior => .retiring frame prior.approvalId
      | none => .recording frame)
  | .retiring frame id =>
    some ({ mirror with inbox := mirror.inbox.withdraw id },
      some (.recording frame))
  | .recording frame =>
    some (mirror.write (some (frame.stored now))
        (fun _ => frame.requestChanges .approval now) now,
      some (.filing
        { kind := .approval, frame := frame, receivedAt := now } true))
  | .filing pending watches =>
    match pending.requestId with
    | none => some (mirror.release, afterwards watches)
    | some requestId =>
      let filed := mirror.inbox.enqueue requestId
        pending.frame.executionGeneration
      some ({ mirror with inbox := filed.1 },
        some (.storing requestId filed.2 watches))
  | .storing requestId id watches =>
    some ((mirror.writeLive none
        ((Writer.storeApprovalId requestId id).changes now) now).release,
      afterwards watches)
  | .withdrawing id watches =>
    some ({ mirror with inbox := mirror.inbox.withdraw id },
      afterwards watches)
  | .ending ending tail watches =>
    mirror.locking task
      (if mirror.row.isLive && mirror.row.isPending .approval none then
        .retiringEnd ending tail watches mirror.approvalId
      else .writingEnd ending tail watches)
  | .retiringEnd ending tail watches id =>
    some ({ mirror with inbox := mirror.inbox.withdraw id },
      some (.writingEnd ending tail watches))
  | .writingEnd ending tail watches =>
    let written := mirror.writeLive
      (ending.frame.map fun frame => frame.stored now)
      (ending.changes tail) now
    some ({ written with
        lock := none
        claimed := if watches then none else written.claimed }, none)
  | .answering _ requestId generation =>
    match mirror.lock with
    | some _ => none
    | none =>
      if !mirror.row.isLive ||
          !mirror.row.isPending .approval (some requestId) then
        some (mirror, none)
      else if (generation.or mirror.row.executionGeneration).isNone then
        some ({ mirror with spent := mirror.spent ++ [requestId] }, none)
      else some (mirror, some (.posting requestId))
  | .settling requestId =>
    match mirror.lock with
    | some _ => none
    | none =>
      some (mirror.writeLive none
        ((Writer.settle requestId).changes now) now, none)
  | .refiling requestId =>
    match mirror.row.pending with
    | none =>
      match mirror.lock with
      | some _ => none
      | none => some (mirror, none)
    | some pending =>
      if !mirror.row.isLive ||
          !mirror.row.isPending .approval (some requestId) then
        match mirror.lock with
        | some _ => none
        | none => some (mirror, none)
      else mirror.locking task (.filing pending false)
  | .stopping reported =>
    match mirror.lock with
    | some _ => none
    | none =>
      some (mirror.writeLive none
          ((Writer.stopping reported).changes now) now,
        if mirror.row.isLive && mirror.row.pending.isSome then
          some (.withdrawing mirror.approvalId false)
        else none)
  | .reattaching =>
    some (mirror,
      if mirror.row.isLive then some (.probing mirror.row) else none)
  | .attaching row =>
    match row.pending with
    | none => some (mirror, some .watching)
    | some pending =>
      if pending.kind = .approval && pending.requestId.isSome then
        mirror.locking task (.filing pending true)
      else some (mirror, some .watching)
  | .watching | .posting _ | .probing _ => none

/-- A task goes on from where it waits. -/
def resume (mirror : Mirror) (task : TaskId) (pc : MirrorPc) :
    MirrorReply → Option (Mirror × Option MirrorPc)
  | .turn now => mirror.turn task pc now
  | .flush tail now =>
    match pc, mirror.lock with
    | .watching, none =>
      some (mirror.write (some (tail.textEvent now)) tail.textChanges
        now, some .watching)
    | _, _ => none
  | .frame frame now =>
    match pc with
    | .watching => mirror.onFrame frame now
    | _ => none
  | .ends ending tail =>
    match pc with
    | .watching => some (mirror, some (.ending ending tail true))
    | _ => none
  | .posted outcome =>
    match pc, outcome with
    | .posting requestId, .accepted =>
      some (mirror, some (.settling requestId))
    | .posting requestId, .noLongerPending =>
      some ({ mirror with spent := mirror.spent ++ [requestId] }, none)
    | .posting requestId, .failed | .posting requestId, .cancelled =>
      some (mirror, some (.refiling requestId))
    | _, _ => none
  | .probed known =>
    match pc with
    | .probing row =>
      if !known then
        some (mirror,
          some (.ending .notReattached (.of row) false))
      else if !row.isLive || mirror.claimed.isSome then
        some (mirror, none)
      else
        some ({ mirror with claimed := some task },
          some (.attaching row))
    | _ => none

/--
What begins: the watch of a run just inserted, a decision, a stop, a
re-attachment.
-/
def start (mirror : Mirror) (task : TaskId) : MirrorPc → Option Mirror
  | .watching =>
    if mirror.claimed.isSome then none
    else some { mirror with claimed := some task }
  | .answering id requestId generation =>
    if ⟨id, requestId, generation, true⟩ ∈ mirror.inbox.entries then
      some { mirror with inbox := mirror.inbox.resolve id }
    else none
  | .stopping _ | .reattaching => some mirror
  | _ => none

def occur (mirror : Mirror) : MirrorEvent → Option Mirror
  | .settle requestId now =>
    match mirror.lock with
    | some _ => none
    | none => some (mirror.writeLive none
        ((Writer.settle requestId).changes now) now)
  | .clarifyDeadline requestId error now =>
    match mirror.lock with
    | some _ => none
    | none => some (mirror.writeLive none
        ((Writer.clarifyDeadline requestId error).changes now) now)
  | .stopDelivered now =>
    match mirror.lock with
    | some _ => none
    | none => some (mirror.writeLive none
        (Writer.stopDelivered.changes now) now)

end Mirror

/-- The tasks about one run. -/
def mirrorProgram : Tasks.Program Mirror MirrorPc MirrorReply MirrorEvent where
  start := Mirror.start
  resume := Mirror.resume
  cancel := fun _ _ _ => none
  occur := Mirror.occur

abbrev MirrorWorld := Tasks.World Mirror MirrorPc

/-- A step of a task, or a restart of the API. -/
inductive MirrorAction where
  | task (action : Tasks.Action MirrorPc MirrorReply MirrorEvent)
  /-- hal0-api starts again: the inbox is empty, and runs are re-attached. -/
  | restart

/-- The world after a restart. -/
def MirrorWorld.restarted (world : MirrorWorld) : MirrorWorld where
  shared :=
    { world.shared with
      inbox := ⟨[], world.shared.inbox.next⟩
      lock := none
      claimed := none }
  tasks := fun task => if task = 0 then some .reattaching else none

/-- One step of the mirrored run. -/
def mirrorStep : StepFunction MirrorWorld MirrorAction
  | world, .task action => mirrorProgram.step world action
  | world, .restart => some (MirrorWorld.restarted world)

/-- A run when it is stored. -/
def Mirror.admitted (row : RunRow) : Mirror :=
  ⟨row, ⟨[], 0⟩, none, none, []⟩

end Hal0.Bridge
