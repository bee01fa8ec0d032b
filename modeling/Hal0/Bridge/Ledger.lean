import Hal0.Core.Windows
import Hal0.Mcp.ApprovalQueue

/-!
# The run ledger of the agent bridge

The ledger is the bridge's durable record of the runs it has delegated to
Hermes: one row for each run, and the newest events of each run in the order
of their sequence numbers.  Every operation is one transaction.

A frame of Hermes is given by what the bridge reads of it; a field which is
absent or of another type reads as `none`.
-/

namespace Hal0.Bridge

open List
open Hal0.Mcp (Json ApprovalId)
open Hal0.Windows (Ordered newest_of_few newest_of_rank ordered_put)

abbrev RunId := String

/-- A timestamp of the clock. -/
abbrev Time := Nat

/-! ## Runs -/

/-- The statuses of a run. -/
inductive RunStatus where
  | queued
  | running
  | waitingForApproval
  | waitingForClarification
  | stopping
  | unknown
  | completed
  | failed
  | cancelled
  | interrupted
deriving DecidableEq

namespace RunStatus

/-- The value of the enumeration. -/
def text : RunStatus → String
  | .queued => "queued"
  | .running => "running"
  | .waitingForApproval => "waiting_for_approval"
  | .waitingForClarification => "waiting_for_clarification"
  | .stopping => "stopping"
  | .unknown => "unknown"
  | .completed => "completed"
  | .failed => "failed"
  | .cancelled => "cancelled"
  | .interrupted => "interrupted"

/-- `HERMES_STATUSES` -/
def hermesStatuses : List RunStatus :=
  [.queued, .running, .waitingForApproval, .stopping, .unknown, .completed,
    .failed, .cancelled, .interrupted]

/-- A status which Hermes reports, where it is known. -/
def ofHermes (reported : String) : Option RunStatus :=
  hermesStatuses.find? fun status => status.text = reported

/-- `TERMINAL_STATUSES` -/
def isTerminal : RunStatus → Bool
  | .completed | .failed | .cancelled | .interrupted | .unknown => true
  | .queued | .running | .waitingForApproval | .waitingForClarification
  | .stopping => false

/-- `_WAITING` -/
def isWaiting : RunStatus → Bool
  | .waitingForApproval | .waitingForClarification => true
  | _ => false

end RunStatus

/-- A frame of the event stream of a run. -/
structure Frame where
  seq : Nat
  event : String
  timestamp : Option Time := none
  delta : Option String := none
  requestId : Option String := none
  executionGeneration : Option Int := none
  text : Option String := none
  output : Option String := none
  usage : Option Json := none
  error : Option String := none
  /-- `command`, `description`, `pattern_key` and what else there is. -/
  rest : List (String × Json) := []

/-- What a run can wait for. -/
inductive RequestKind where
  | approval
  | clarify
deriving DecidableEq

/-- The event that carries such a request. -/
def RequestKind.event : RequestKind → String
  | .approval => "approval.request"
  | .clarify => "clarify.request"

/-- `pending_request_json`: the frame, when it came, and its inbox row. -/
structure Pending where
  kind : RequestKind
  frame : Frame
  receivedAt : Time
  approvalId : Option ApprovalId := none

/-- The id under which the request is answered. -/
def Pending.requestId (pending : Pending) : Option String :=
  pending.frame.requestId

/-- A row of the table `runs`. -/
structure RunRow where
  runId : RunId
  client : String
  agent : String
  profile : String
  sessionKey : Option String
  status : RunStatus
  createdAt : Time
  updatedAt : Time
  inputPreview : String
  output : Option String
  error : Option String
  usage : Option Json
  admissionId : Option String
  executionGeneration : Option Int
  pending : Option Pending
  lastSeq : Nat
  idempotencyKey : Option String := none
  requestSha256 : Option String := none
  pendingStop : Option Time := none

/-- The run has not ended. -/
def RunRow.isLive (row : RunRow) : Bool :=
  !row.status.isTerminal

/-- `_is_pending` -/
def RunRow.isPending (row : RunRow) (kind : RequestKind)
    (requestId : Option String) : Bool :=
  row.pending.any fun pending =>
    pending.kind = kind &&
      (requestId.isNone || pending.requestId = requestId)

/-- The columns which an update sets; what is `none` stays. -/
structure Changes where
  status : Option RunStatus := none
  output : Option String := none
  error : Option (Option String) := none
  usage : Option Json := none
  executionGeneration : Option Int := none
  pending : Option (Option Pending) := none
  pendingStop : Option (Option Time) := none

/-- The dict of changes is empty. -/
def Changes.isEmpty (changes : Changes) : Bool :=
  changes.status.isNone && changes.output.isNone && changes.error.isNone &&
    changes.usage.isNone && changes.executionGeneration.isNone &&
    changes.pending.isNone && changes.pendingStop.isNone

/-- `_update_run` -/
def RunRow.update (row : RunRow) (changes : Changes) (now : Time) : RunRow :=
  { row with
    status := changes.status.getD row.status
    output := changes.output.or row.output
    error := changes.error.getD row.error
    usage := changes.usage.or row.usage
    executionGeneration :=
      changes.executionGeneration.or row.executionGeneration
    pending := changes.pending.getD row.pending
    pendingStop := changes.pendingStop.getD row.pendingStop
    updatedAt := now }

/-! ## Events -/

/-- The payload of a stored event. -/
inductive Payload where
  | messageText (fromSeq : Nat) (text : String)
  | frame (frame : Frame)

/-- `payload["text"]` -/
def Payload.text : Payload → Option String
  | .messageText _ text => some text
  | .frame sent => sent.text

/--
A row of the table `run_events`, of one run.  Hermes counts its events from
one; the column holds any integer, here a natural number.
-/
structure StoredEvent where
  seq : Nat
  ts : Time
  event : String
  payload : Payload

/-- `EVENT_CAP` -/
def eventCap : Nat := 500

/-- `INSERT OR REPLACE`, in the order of the sequence numbers. -/
def insertEvent (events : List StoredEvent) (event : StoredEvent) :
    List StoredEvent :=
  events.filter (fun other => other.seq < event.seq) ++
    event :: events.filter (fun other => event.seq < other.seq)

/-- `_append_event`: the oldest rows beyond the cap are dropped. -/
def appendEvent (events : List StoredEvent) (event : StoredEvent) :
    List StoredEvent :=
  let inserted := insertEvent events event
  inserted.drop (inserted.length - eventCap)

/-- The `DELETE` of `_append_event`, below the `EVENT_CAP`-th newest row. -/
def deleteBelow (events : List StoredEvent) : List StoredEvent :=
  match events.reverse[eventCap - 1]? with
  | none => events
  | some row => events.filter fun event => ¬ event.seq < row.seq

/-- What is dropped is what the `DELETE` takes away by its rank. -/
theorem appendEvent_eq_deleteBelow {events : List StoredEvent}
    (ordered : Ordered StoredEvent.seq events) (event : StoredEvent) :
    appendEvent events event = deleteBelow (insertEvent events event) := by
  have inserted : Ordered StoredEvent.seq (insertEvent events event) :=
    ordered_put ordered
  rw [deleteBelow]
  split
  · next noRow => exact newest_of_few (by decide) noRow
  · next row isRow => exact newest_of_rank inserted (by decide) isRow

/-! ## The ledger -/

/-- The two tables; `run_id` is the primary key of the first. -/
structure Ledger where
  runs : List RunRow
  events : RunId → List StoredEvent
  unique : (runs.map RunRow.runId).Nodup

namespace Ledger

/-- No runs and no events. -/
def empty : Ledger := ⟨[], fun _ => [], .nil⟩

/-- `get_run` -/
def getRun (ledger : Ledger) (runId : RunId) : Option RunRow :=
  ledger.runs.find? fun row => row.runId = runId

/-- `run_for_idempotency_key`: the newest run of that key. -/
def runForIdempotencyKey (ledger : Ledger) (client profile key : String) :
    Option RunRow :=
  (ledger.runs.filter fun row =>
    row.client = client && row.profile = profile &&
      row.idempotencyKey = some key).foldl
    (fun newest row =>
      match newest with
      | none => some row
      | some other =>
        if other.createdAt < row.createdAt ||
            (other.createdAt = row.createdAt && other.runId < row.runId)
        then some row else some other) none

/-- Newest first, and the greater id first among runs of one moment. -/
def listedBefore (left right : RunRow) : Prop :=
  right.createdAt < left.createdAt ∨
    right.createdAt = left.createdAt ∧ right.runId ≤ left.runId

instance (left right : RunRow) : Decidable (listedBefore left right) :=
  inferInstanceAs (Decidable (_ ∨ _))

/-- `list_runs` -/
def listRuns (ledger : Ledger) (client status : Option String)
    (limit : Nat) : List RunRow :=
  ((ledger.runs.filter fun row =>
    client.all (row.client = ·) && status.all (row.status.text = ·)
  ).insertionSort listedBefore).take limit

/-- `count_live_runs` -/
def countLiveRuns (ledger : Ledger) (client : String) : Nat :=
  ledger.runs.countP fun row => row.client = client && row.isLive

/-- `events`: those after `sinceSeq`, oldest first. -/
def eventsSince (ledger : Ledger) (runId : RunId) (sinceSeq limit : Nat) :
    List StoredEvent :=
  ((ledger.events runId).filter fun event => sinceSeq < event.seq).take limit

/-- `events_before`: newest first. -/
def eventsBefore (ledger : Ledger) (runId : RunId) (seq limit : Nat) :
    List StoredEvent :=
  (((ledger.events runId).filter fun event =>
    event.seq < seq).reverse).take limit

/-- `last_events`: the newest, oldest first. -/
def lastEvents (ledger : Ledger) (runId : RunId) (limit : Nat) :
    List StoredEvent :=
  (((ledger.events runId).reverse).take limit).reverse

/-- `insert_run`; a known id is refused. -/
def insertRun (ledger : Ledger) (row : RunRow) : Option Ledger :=
  if fresh : row.runId ∈ ledger.runs.map RunRow.runId then none
  else
    some
      { ledger with
        runs := ledger.runs ++ [row]
        unique := by
          rw [map_append, map_singleton]
          exact nodup_append.mpr ⟨ledger.unique, by simp, by
            rintro id listed other isNew rfl
            rw [mem_singleton] at isNew
            exact fresh (isNew ▸ listed)⟩ }

/-- Set the row of a run; the id stays. -/
def setRun (ledger : Ledger) (runId : RunId) (change : RunRow → RunRow) :
    Ledger :=
  { ledger with
    runs := ledger.runs.map fun row =>
      if row.runId = runId then { change row with runId := row.runId }
      else row
    unique := by
      rw [map_map]
      convert ledger.unique using 2
      funext row
      simp only [Function.comp_apply]
      split <;> rfl }

/-- `_append_event` and the raise of `last_seq`. -/
def storeEvent (ledger : Ledger) (runId : RunId) (event : StoredEvent) :
    Ledger :=
  { ledger.setRun runId fun row =>
      { row with lastSeq := max row.lastSeq event.seq } with
    events := Function.update ledger.events runId
      (appendEvent (ledger.events runId) event) }

/-- What `record` reports: the row before and after, and whether it wrote. -/
structure Recorded where
  ledger : Ledger
  before : RunRow
  after : RunRow
  changed : Bool

/--
`record`: append an event and apply the changes which `decide` picks.  With
`skipTerminal` a run which is over is left alone.
-/
def record (ledger : Ledger) (runId : RunId) (event : Option StoredEvent)
    (decide : RunRow → Changes) (skipTerminal : Bool) (now : Time) :
    Option Recorded :=
  (ledger.getRun runId).bind fun before =>
    if skipTerminal && before.status.isTerminal then none
    else
      let stored := (event.map (ledger.storeEvent runId)).getD ledger
      let changes := decide before
      let updated :=
        if changes.isEmpty then stored
        else stored.setRun runId fun row => row.update changes now
      some ⟨updated, before, (updated.getRun runId).getD before,
        !changes.isEmpty || event.isSome⟩

/-- `prune_runs`: the runs from before `olderThan` go, with their events. -/
def pruneRuns (ledger : Ledger) (olderThan : Time) : Ledger where
  runs := ledger.runs.filter fun row => olderThan ≤ row.createdAt
  events := fun runId =>
    if ledger.runs.any fun row =>
        row.runId = runId && row.createdAt < olderThan then []
    else ledger.events runId
  unique := ledger.unique.sublist (filter_sublist.map _)

/-! ## Rows by their id -/

section Rows

variable {ledger : Ledger} {runId other : RunId} {row : RunRow}
  {change : RunRow → RunRow}

theorem eq_of_runId {left right : RunRow} (mem : left ∈ ledger.runs)
    (other : right ∈ ledger.runs) (same : left.runId = right.runId) :
    left = right :=
  inj_on_of_nodup_map ledger.unique mem other same

theorem getRun_eq_some_iff :
    ledger.getRun runId = some row ↔
      row ∈ ledger.runs ∧ row.runId = runId := by
  constructor
  · intro found
    exact ⟨mem_of_find?_eq_some found,
      by simpa using find?_some found⟩
  · rintro ⟨mem, same⟩
    cases found : ledger.getRun runId with
    | none =>
      rw [getRun, find?_eq_none] at found
      simpa [same] using found row mem
    | some first =>
      have listed : first ∈ ledger.runs := mem_of_find?_eq_some found
      have isId : first.runId = runId := by
        simpa using find?_some found
      rw [eq_of_runId listed mem (isId.trans same.symm)]

theorem runId_of_getRun (found : ledger.getRun runId = some row) :
    row.runId = runId :=
  (getRun_eq_some_iff.mp found).2

/-- Only the row of the run is changed. -/
theorem getRun_setRun (other : RunId) :
    (ledger.setRun runId change).getRun other =
      (ledger.getRun other).map fun row =>
        if other = runId then { change row with runId := row.runId }
        else row := by
  have keeps : (fun row : RunRow => decide (row.runId = other)) ∘
      (fun row => if row.runId = runId then
        { change row with runId := row.runId } else row) =
        fun row => decide (row.runId = other) := by
    funext row
    simp only [Function.comp_apply]
    split <;> rfl
  unfold getRun setRun
  simp only [find?_map, keeps]
  cases found : ledger.runs.find? (fun row => decide (row.runId = other)) with
  | none => rfl
  | some row =>
    have isId : row.runId = other := by simpa using find?_some found
    simp only [Option.map_some, isId]

theorem mem_setRun :
    row ∈ (ledger.setRun runId change).runs ↔
      ∃ old ∈ ledger.runs, row =
        if old.runId = runId then { change old with runId := old.runId }
        else old := by
  unfold setRun
  rw [mem_map]
  constructor
  · rintro ⟨old, mem, rfl⟩
    exact ⟨old, mem, rfl⟩
  · rintro ⟨old, mem, rfl⟩
    exact ⟨old, mem, rfl⟩

end Rows

/-! ## What a transaction leaves of its run -/

/-- The row with `last_seq` raised to an event. -/
def bumped (row : RunRow) (event : Option StoredEvent) : RunRow :=
  match event with
  | none => row
  | some event => { row with lastSeq := max row.lastSeq event.seq }

/-- The row after an event and some changes. -/
def rowAfter (row : RunRow) (event : Option StoredEvent)
    (changes : Changes) (now : Time) : RunRow :=
  if changes.isEmpty then bumped row event
  else (bumped row event).update changes now

/-- The events after perhaps one more. -/
def eventsAfter (events : List StoredEvent) (event : Option StoredEvent) :
    List StoredEvent :=
  match event with
  | none => events
  | some event => appendEvent events event

section RowAfter

variable (row : RunRow) (event : Option StoredEvent) (changes : Changes)
  (now : Time)

theorem eq_of_isEmpty {changes : Changes} (empty : changes.isEmpty = true) :
    changes = {} := by
  rcases changes with ⟨status, output, error, usage, generation, pending,
    pendingStop⟩
  simp only [Changes.isEmpty, Bool.and_eq_true, Option.isNone_iff_eq_none]
    at empty
  simp [empty]

@[simp]
theorem rowAfter_lastSeq : (rowAfter row event changes now).lastSeq =
    (bumped row event).lastSeq := by
  unfold rowAfter
  split <;> rfl

@[simp]
theorem rowAfter_status : (rowAfter row event changes now).status =
    changes.status.getD row.status := by
  unfold rowAfter
  split
  · rename_i empty
    rw [eq_of_isEmpty empty]
    cases event <;> rfl
  · cases event <;> rfl

@[simp]
theorem rowAfter_output : (rowAfter row event changes now).output =
    changes.output.or row.output := by
  unfold rowAfter
  split
  · rename_i empty
    rw [eq_of_isEmpty empty]
    cases event <;> rfl
  · cases event <;> rfl

end RowAfter

section Records

variable {ledger : Ledger} {runId : RunId} {row : RunRow}
  {event : Option StoredEvent} {decide : RunRow → Changes}
  {skipTerminal : Bool} {now : Time} {recorded : Recorded}

/-- What `record` has done when it reports a row. -/
structure Records (ledger : Ledger) (runId : RunId)
    (event : Option StoredEvent) (decide : RunRow → Changes)
    (skipTerminal : Bool) (now : Time) (recorded : Recorded) : Prop where
  found : ledger.getRun runId = some recorded.before
  live : skipTerminal = true → recorded.before.isLive = true
  row : recorded.ledger.getRun runId =
    some (rowAfter recorded.before event (decide recorded.before) now)
  after : recorded.after =
    rowAfter recorded.before event (decide recorded.before) now
  events : recorded.ledger.events runId =
    eventsAfter (ledger.events runId) event

theorem getRun_storeEvent (event : StoredEvent) :
    (ledger.storeEvent runId event).getRun runId =
      (ledger.getRun runId).map fun row =>
        { row with lastSeq := max row.lastSeq event.seq } := by
  show (ledger.setRun runId fun row =>
    { row with lastSeq := max row.lastSeq event.seq }).getRun runId = _
  rw [getRun_setRun]
  simp

@[simp]
theorem events_storeEvent (event : StoredEvent) :
    (ledger.storeEvent runId event).events runId =
      appendEvent (ledger.events runId) event := by
  simp [storeEvent]

/-- What `record` does where it commits. -/
theorem record_eq_some
    (done : ledger.record runId event decide skipTerminal now =
      some recorded) :
    Records ledger runId event decide skipTerminal now recorded := by
  unfold record at done
  cases found : ledger.getRun runId with
  | none => simp [found] at done
  | some before =>
    rw [found, Option.bind_some] at done
    split at done
    · simp at done
    · rename_i notSkipped
      obtain rfl := Option.some.inj done
      have raised : ((event.map (ledger.storeEvent runId)).getD
          ledger).getRun runId = some (bumped before event) := by
        cases event with
        | none => simpa [bumped] using found
        | some event => simp [getRun_storeEvent, found, bumped]
      have row : (if (decide before).isEmpty then
          (event.map (ledger.storeEvent runId)).getD ledger
        else ((event.map (ledger.storeEvent runId)).getD ledger).setRun
          runId fun row => row.update (decide before) now).getRun runId =
            some (rowAfter before event (decide before) now) := by
        unfold rowAfter
        split
        · exact raised
        · rw [getRun_setRun, raised]
          simp [RunRow.update]
      constructor
      · exact found
      · intro skips
        cases terminal : before.status.isTerminal with
        | false => simp [RunRow.isLive, terminal]
        | true => simp [skips, terminal] at notSkipped
      · exact row
      · simp only [row, Option.getD_some]
      · cases event with
        | none => simp only [Option.map_none, Option.getD_none]; split <;> rfl
        | some event =>
          simp only [Option.map_some, Option.getD_some]
          split
          · exact events_storeEvent event
          · exact events_storeEvent event

theorem record_eq_none
    (refused : ledger.record runId event decide skipTerminal now = none) :
    ∀ row, ledger.getRun runId = some row →
      skipTerminal = true ∧ row.isLive = false := by
  intro row found
  unfold record at refused
  rw [found, Option.bind_some] at refused
  split at refused
  · rename_i skipped
    simpa [RunRow.isLive] using skipped
  · simp at refused

/-- A run that is too old is gone. -/
theorem getRun_pruneRuns (olderThan : Time) :
    (ledger.pruneRuns olderThan).getRun runId =
      (ledger.getRun runId).filter fun row => olderThan ≤ row.createdAt := by
  cases kept : (ledger.pruneRuns olderThan).getRun runId with
  | some row =>
    obtain ⟨mem, same⟩ := getRun_eq_some_iff.mp kept
    obtain ⟨listed, young⟩ := mem_filter.mp mem
    rw [getRun_eq_some_iff.mpr ⟨listed, same⟩, Option.filter_some,
      if_pos young]
  | none =>
    cases found : ledger.getRun runId with
    | none => rfl
    | some row =>
      obtain ⟨listed, same⟩ := getRun_eq_some_iff.mp found
      rw [Option.filter_some]
      split
      · rename_i young
        have : (ledger.pruneRuns olderThan).getRun runId = some row :=
          getRun_eq_some_iff.mpr
            ⟨mem_filter.mpr ⟨listed, young⟩, same⟩
        simp [kept] at this
      · rfl

theorem events_pruneRuns {olderThan : Time}
    (kept : (ledger.pruneRuns olderThan).getRun runId = some row) :
    (ledger.pruneRuns olderThan).events runId = ledger.events runId := by
  obtain ⟨mem, same⟩ := getRun_eq_some_iff.mp kept
  obtain ⟨listed, young⟩ := mem_filter.mp mem
  have none : ¬ (ledger.runs.any fun row =>
      row.runId = runId && row.createdAt < olderThan) = true := by
    rw [any_eq_true]
    rintro ⟨other, otherListed, old⟩
    simp only [Bool.and_eq_true, decide_eq_true_eq] at old young
    obtain rfl := eq_of_runId otherListed listed (old.1.trans same.symm)
    exact absurd old.2 (Nat.not_lt.mpr young)
  exact if_neg none

end Records

end Ledger

end Hal0.Bridge
