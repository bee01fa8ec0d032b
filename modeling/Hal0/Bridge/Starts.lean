import Hal0.Bridge.RunCalls

/-!
# Starting runs

`start_run` holds the lock of its client while it looks for the run of its
idempotency key, counts the live runs, asks Hermes for the run and records
it.  A task is suspended wherever the code awaits something; what a worker
thread does for it is a step of its own, so that the answer may be old by the
time the task goes on.  Once `_admit` is created the call waits for it through
any number of cancellations, so the two are one task from there on.
-/

namespace Hal0.Bridge

open Hal0.Tasks (TaskId)

/-! ## Requests -/

/-- The arguments of `start_run`. -/
structure StartArgs where
  agent : String
  input : String
  sessionKey : Option String := none
  instructions : Option String := none
  reasoningEffort : Option String := none
  idempotencyKey : Option String := none

/-- `BridgeConfig`, as far as a start reads it. -/
structure StartConfig where
  enabled : Bool := true
  maxConcurrentRunsPerClient : Nat

/-- What a start asks for, once its arguments are checked. -/
structure StartRequest where
  client : String
  agent : String
  profile : String
  sessionKey : Option String
  sentIdempotency : Option String
  fingerprint : String
  inputPreview : String
deriving DecidableEq

/-- `repr`, `_request_digest` and the masked and cut preview of the input. -/
structure StartOutside where
  quote : String → String
  digest : (input : String) →
    (instructions reasoningEffort sessionKey : Option String) → String
  preview : String → String

/-- `[A-Za-z0-9]` -/
def isProfileStart (char : Char) : Bool :=
  ('a' ≤ char && char ≤ 'z') || ('A' ≤ char && char ≤ 'Z') || char.isDigit

/-- `_PROFILE_NAME` -/
def isProfileName : List Char → Bool
  | [] => false
  | first :: rest =>
    isProfileStart first && rest.length ≤ 63 &&
      rest.all fun char =>
        isProfileStart char || char = '_' || char = '.' || char = '-'

section Prepare

variable (outside : StartOutside)

/-- `profile_of` -/
def profileOf (agent : String) : Except BridgeError String :=
  let profile := agent.toList.drop ("hermes/".length)
  if agent = "hermes" then .ok "default"
  else if "hermes/".toList.isPrefixOf agent.toList && isProfileName profile
  then .ok (String.ofList profile)
  else
    .error ⟨"bridge.unknown_agent", "unknown agent " ++ outside.quote agent ++
      ": use 'hermes' or 'hermes/<profile>'", 404⟩

/-- `_namespaced` of a key which may be missing. -/
def namespacedKey (client : String) (key : Option String)
    (code what : String) : Except BridgeError (Option String) :=
  match key with
  | none => .ok none
  | some key => (namespaced client key code what).map some

/-- `start_run`, up to the lock. -/
def prepare (closed : Bool) (config : StartConfig) (caller : Caller)
    (args : StartArgs) : Except BridgeError StartRequest := do
  if closed then
    throw ⟨"bridge.unavailable", "the agent bridge is shutting down", 503⟩
  if !config.enabled then
    throw ⟨"bridge.disabled",
      "the agent bridge is disabled ([bridge].enabled)", 404⟩
  let profile ← profileOf outside args.agent
  let _ ← namespacedKey caller.name args.sessionKey
    "bridge.invalid_session_key" "session_key"
  let sentIdempotency ← namespacedKey caller.name args.idempotencyKey
    "bridge.invalid_idempotency_key" "idempotency_key"
  return {
    client := caller.name
    agent := args.agent
    profile := profile
    sessionKey := args.sessionKey
    sentIdempotency := sentIdempotency
    fingerprint := outside.digest args.input args.instructions
      args.reasoningEffort args.sessionKey
    inputPreview := outside.preview args.input }

end Prepare

/-- The row of a run which Hermes has accepted. -/
def StartRequest.row (request : StartRequest) (runId : RunId)
    (status admissionId : Option String) (now : Time) : RunRow where
  runId := runId
  client := request.client
  agent := request.agent
  profile := request.profile
  sessionKey := request.sessionKey
  status := (status.bind RunStatus.ofHermes).getD .running
  createdAt := now
  updatedAt := now
  inputPreview := request.inputPreview
  output := none
  error := none
  usage := none
  admissionId := admissionId
  executionGeneration := none
  pending := none
  lastSeq := 0
  idempotencyKey := request.sentIdempotency
  requestSha256 := some request.fingerprint

/-! ## Tasks -/

/-- What Hermes answers to `POST /v1/runs`. -/
inductive StartAnswer where
  | started (status admissionId : Option String)
  | replayed (runId : RunId) (status admissionId : Option String)
  | failed (error : HermesError)
  /-- The run is accepted, but the answer has no id of it. -/
  | noRunId

/-- Where a task is suspended. -/
inductive Stage where
  | locking
  | looking
  | looked (known : Option RunRow)
  | counting
  | counted (live : Nat)
  /-- Hermes is asked; it may have accepted a run. -/
  | posting (accepted : Option RunId)
  | searching (runId : RunId) (status admissionId : Option String)
  | searched (runId : RunId) (status admissionId : Option String)
      (existing : Option RunRow)
  /-- `_admit` -/
  | inserting (row : RunRow)
  | inserted (row : RunRow)
  | unrecorded (row : RunRow)
  | stopping (row : RunRow)
  | emitting (row : RunRow)

/-- A call of `start_run` and how far it is. -/
structure StartPc where
  caller : Caller
  args : StartArgs
  request : StartRequest
  stage : Stage
  /-- The caller has gone away since `_admit` was created. -/
  cancelled : Bool := false

/-- How a call of `start_run` ends. -/
inductive StartResult where
  | view (view : View)
  | refused (error : BridgeError)
  | raised
  | cancelled

/-- What the tasks share. -/
structure Starts where
  ledger : Ledger
  /-- `_start_locks` -/
  holder : String → Option TaskId
  closed : Bool
  /-- The runs which were handed to the watcher. -/
  watched : List RunId
  /-- The runs which Hermes was asked to stop. -/
  stopAsked : List RunId
  /--
  The runs which Hermes has accepted, with the task they are for; a run which
  it only replays is one of them if the ledger lacks it.
  -/
  accepted : List (TaskId × RunId)
  results : List (TaskId × StartResult)

/-- What a waiting call is answered. -/
inductive StartReply where
  /-- The event loop resumes the task. -/
  | turn (now : Time)
  /-- A worker thread does what the task waits for; it may fail. -/
  | thread (commits : Bool)
  /-- Hermes accepts a run. -/
  | accept (runId : RunId)
  | answer (answer : StartAnswer) (now : Time)
  /-- The caller goes away while `_admit` is under way. -/
  | cancel

/-- What happens beside the calls. -/
inductive StartEvent where
  /-- A live run is written by its watcher or a call. -/
  | write (runId : RunId) (event : Option StoredEvent)
      (decide : RunRow → Changes) (now : Time)
  | close

namespace Starts

/-- The task has ended; it gives the lock back. -/
def finish (starts : Starts) (task : TaskId) (pc : StartPc)
    (result : StartResult) : Starts :=
  { starts with
    holder :=
      if starts.holder pc.request.client = some task then
        Function.update starts.holder pc.request.client none
      else starts.holder
    results := starts.results ++ [(task, result)] }

/-- A key that was used already. -/
def idempotencyConflict (message : String) : BridgeError :=
  ⟨"bridge.idempotency_conflict", message, 409⟩

def differentInput : BridgeError :=
  idempotencyConflict
    "idempotency_key was already used for a run with different input"

/-- The client is at its limit. -/
def tooManyRuns (client : String) (live limit : Nat) : BridgeError :=
  ⟨"bridge.too_many_runs", client ++ " already has " ++ toString live ++
    " run(s) in flight (limit " ++ toString limit ++
    "); wait for one to finish or stop one", 429⟩

/-- The run started and could not be stored. -/
def storeUnavailable : BridgeError :=
  ⟨"bridge.store_unavailable",
    "the run ledger could not record the run, so it was stopped; try again",
    503⟩

/-- A refusal of Hermes as the caller is told of it. -/
def hermesFailure : HermesError → BridgeError
  | .refused status code message =>
    if code = some "idempotency_key_conflict" then differentInput
    else (HermesError.refused status code message).asBridge
  | error => error.asBridge

/-- The answer for a run which the key already names. -/
def knownResult (request : StartRequest) (row : RunRow) : StartResult :=
  if row.requestSha256 = none ||
      row.requestSha256 = some request.fingerprint then .view row.view
  else .refused differentInput

/-- The answer for a replay of a run which is in the ledger. -/
def existingResult (request : StartRequest) (row : RunRow) : StartResult :=
  if row.client ≠ request.client then
    .refused (idempotencyConflict
      "idempotency_key matches a run that belongs to another client")
  else .view row.view

section Resume

variable (outside : StartOutside) (limit : Nat)

/-- The thread of a task does its work. -/
def thread (starts : Starts) (task : TaskId) (pc : StartPc)
    (commits : Bool) : Option (Starts × Option StartPc) :=
  match pc.stage with
  | .looking =>
    if commits then
      some (starts, some { pc with
        stage := .looked
          (pc.request.sentIdempotency.bind fun key =>
            starts.ledger.runForIdempotencyKey pc.request.client
              pc.request.profile key) })
    else some (starts.finish task pc .raised, none)
  | .counting =>
    if commits then
      some (starts, some { pc with
        stage := .counted
          (starts.ledger.countLiveRuns pc.request.client) })
    else some (starts.finish task pc .raised, none)
  | .searching runId status admissionId =>
    if commits then
      some (starts, some { pc with
        stage := .searched runId status admissionId
          (starts.ledger.getRun runId) })
    else some (starts.finish task pc .raised, none)
  | .inserting row =>
    match if commits then starts.ledger.insertRun row else none with
    | some ledger =>
      some ({ starts with ledger := ledger },
        some { pc with stage := .inserted row })
    | none => some (starts, some { pc with stage := .unrecorded row })
  | _ => none

/-- The event loop resumes a task, up to its next await. -/
def turn (starts : Starts) (task : TaskId) (pc : StartPc) (now : Time) :
    Option (Starts × Option StartPc) :=
  match pc.stage with
  | .locking =>
    match starts.holder pc.request.client with
    | some _ => none
    | none =>
      some
        ({ starts with
          holder := Function.update starts.holder pc.request.client
            (some task) },
        some { pc with
          stage :=
            if pc.request.sentIdempotency.isSome then .looking
            else .counting })
  | .looked none => some (starts, some { pc with stage := .counting })
  | .looked (some row) =>
    some (starts.finish task pc (knownResult pc.request row), none)
  | .counted live =>
    if limit ≤ live then
      some (starts.finish task pc
        (.refused (tooManyRuns pc.request.client live limit)), none)
    else some (starts, some { pc with stage := .posting none })
  | .searched runId status admissionId none =>
    some (starts, some { pc with
      stage := .inserting
        (pc.request.row runId status admissionId now) })
  | .searched _ _ _ (some row) =>
    some (starts.finish task pc (existingResult pc.request row), none)
  | .inserted row =>
    some ({ starts with watched := starts.watched ++ [row.runId] },
      some { pc with stage := .emitting row })
  | .unrecorded row =>
    some ({ starts with stopAsked := starts.stopAsked ++ [row.runId] },
      some { pc with stage := .stopping row })
  | .stopping _ =>
    some (starts.finish task pc (.refused storeUnavailable), none)
  | .emitting row =>
    some (starts.finish task pc
      (if pc.cancelled then .cancelled else .view row.view), none)
  | _ => none

/-- Hermes names a run it has accepted before; the ledger may lack it. -/
def replay (starts : Starts) (task : TaskId) (runId : RunId) : Starts :=
  { starts with
    accepted :=
      if (starts.ledger.getRun runId).isSome then starts.accepted
      else starts.accepted ++ [(task, runId)] }

/-- Hermes answers the request for a run. -/
def answer (starts : Starts) (task : TaskId) (pc : StartPc)
    (answer : StartAnswer) (now : Time) : Option (Starts × Option StartPc) :=
  match pc.stage, answer with
  | .posting (some runId), .started status admissionId =>
    some (starts, some { pc with
      stage := .inserting
        (pc.request.row runId status admissionId now) })
  | .posting none, .replayed runId status admissionId =>
    some (starts.replay task runId, some { pc with
      stage := .searching runId status admissionId })
  | .posting _, .failed error =>
    some (starts.finish task pc (.refused (hermesFailure error)), none)
  | .posting _, .noRunId =>
    some (starts.finish task pc
      (.refused ⟨"bridge.agent_unavailable", "Hermes profile " ++
        outside.quote pc.request.profile ++
        " accepted the run but sent no run id", 502⟩), none)
  | _, _ => none

/-- A call goes on from where it waits. -/
def resume (starts : Starts) (task : TaskId) (pc : StartPc) :
    StartReply → Option (Starts × Option StartPc)
  | .turn now => starts.turn limit task pc now
  | .thread commits => starts.thread task pc commits
  | .answer answer now => starts.answer outside task pc answer now
  | .accept runId =>
    match pc.stage with
    | .posting none =>
      some ({ starts with
          accepted := starts.accepted ++ [(task, runId)] },
        some { pc with stage := .posting (some runId) })
    | _ => none
  | .cancel =>
    match pc.stage with
    | .inserting _ | .inserted _ | .unrecorded _ | .stopping _
    | .emitting _ => some (starts, some { pc with cancelled := true })
    | _ => none

end Resume

/-- The caller goes away before `_admit` is created. -/
def cancel (starts : Starts) (task : TaskId) (pc : StartPc) :
    Option Starts :=
  match pc.stage with
  | .inserting _ | .inserted _ | .unrecorded _ | .stopping _
  | .emitting _ => none
  | _ => some (starts.finish task pc .cancelled)

def occur (starts : Starts) : StartEvent → Option Starts
  | .write runId event decide now =>
    (starts.ledger.record runId event decide true now).map fun recorded =>
      { starts with ledger := recorded.ledger }
  | .close => some { starts with closed := true }

/-- Before any start. -/
def idle (ledger : Ledger) : Starts where
  ledger := ledger
  holder := fun _ => none
  closed := false
  watched := []
  stopAsked := []
  accepted := []
  results := []

end Starts

/-- A call comes to the lock if its arguments pass the checks. -/
def Starts.start (outside : StartOutside) (config : StartConfig)
    (starts : Starts) (pc : StartPc) : Option Starts :=
  match prepare outside starts.closed config pc.caller pc.args, pc.stage with
  | .ok request, .locking =>
    if request = pc.request && !pc.cancelled then some starts else none
  | _, _ => none

/-- `start_run` -/
def startProgram (outside : StartOutside) (config : StartConfig) :
    Tasks.Program Starts StartPc StartReply StartEvent where
  start := fun starts _ pc => starts.start outside config pc
  resume := fun starts task pc reply =>
    starts.resume outside config.maxConcurrentRunsPerClient task pc reply
  cancel := Starts.cancel
  occur := Starts.occur

end Hal0.Bridge
