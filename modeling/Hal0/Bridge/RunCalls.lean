import Hal0.Bridge.Ledger

/-!
# The run calls of a bridge client

The calls which read, answer, steer and stop a run.  Each of them first asks
the ledger for the run and refuses a run of another client in the words of a
run which is not there; later reads go by the id of the run alone.  What a
call asks of Hermes and which inbox rows it withdraws is part of its outcome.
-/

namespace Hal0.Bridge

open Hal0.Mcp (ApprovalId Json)

/-! ## Clients and their keys -/

/-- `NAME_RE` -/
def isNameStart (char : Char) : Bool :=
  ('a' ≤ char && char ≤ 'z') || char.isDigit

/-- A character of a client's name after the first. -/
def isNameChar (char : Char) : Bool :=
  isNameStart char || char = '_' || char = '-'

/-- `valid_name` -/
def validName (name : String) : Bool :=
  match name.toList with
  | [] => false
  | first :: rest =>
    isNameStart first && rest.all isNameChar && rest.length ≤ 31

/-- The tier of a caller. -/
inductive Tier where
  | bridge
  | admin
deriving DecidableEq

/-- Who is asking: a client by a name which the store accepts, or `admin`. -/
structure Caller where
  tier : Tier
  name : String
  valid : validName name = true

/-- An error with its code, its text and its status. -/
structure BridgeError where
  code : String
  message : String
  status : Nat
deriving DecidableEq

/-- `_MAX_HEADER_KEY` -/
def maxHeaderKey : Nat := 256

/-- `_HEADER_KEY`: visible ASCII. -/
def isHeaderChar (char : Char) : Bool :=
  0x21 ≤ char.toNat && char.toNat ≤ 0x7e

/-- What the session keys of a client begin with. -/
def keyPrefix (client : String) : String := "hal0-bridge:" ++ client ++ ":"

/-- `_namespaced` -/
def namespaced (client key code what : String) : Except BridgeError String :=
  if key.toList.isEmpty || !key.toList.all isHeaderChar ||
      maxHeaderKey < (keyPrefix client).length + key.length then
    .error
      { code := code
        message := what ++ " must be 1 to " ++
          toString ((maxHeaderKey : Int) - (keyPrefix client).length) ++
          " visible ASCII characters with no spaces"
        status := 422 }
  else .ok (keyPrefix client ++ key)

/-! ## Hermes -/

/-- What the run calls ask of Hermes. -/
inductive HermesCall where
  | clarify (profile : String) (runId : RunId) (requestId : String)
      (executionGeneration : Int) (answer : String)
  | steer (profile : String) (runId : RunId) (input : String)
  | stop (profile : String) (runId : RunId)
deriving DecidableEq

/-- The run that the call is about. -/
def HermesCall.runId : HermesCall → RunId
  | .clarify _ runId _ _ _ => runId
  | .steer _ runId _ => runId
  | .stop _ runId => runId

/-- The ways in which a call to Hermes fails. -/
inductive HermesError where
  | refused (status : Nat) (code : Option String) (message : String)
  | unavailable (message : String)
  | unkeyed (message : String)
deriving DecidableEq

/-- A refusal passes a 4xx on, unless it is hal0's own key that is refused. -/
def HermesError.asBridge : HermesError → BridgeError
  | .refused status _ message =>
    { code := "bridge.agent_refused"
      message := message
      status :=
        if 400 ≤ status && status < 500 && status ≠ 401 && status ≠ 403
        then status else 502 }
  | .unavailable message => ⟨"bridge.agent_unavailable", message, 502⟩
  | .unkeyed message => ⟨"bridge.agent_unkeyed", message, 503⟩

/-- Hermes answers a call, perhaps with a `status`. -/
abbrev Hermes := HermesCall → Except HermesError (Option String)

/-! ## Answers -/

/-- `_view` -/
structure View where
  runId : RunId
  agent : String
  profile : String
  client : String
  status : RunStatus
  createdAt : Time
  updatedAt : Time
  inputPreview : String
  output : Option String
  error : Option String
  usage : Option Json
  pending : Option Pending
  lastSeq : Nat

/-- What a caller is shown of a run. -/
def RunRow.view (row : RunRow) : View where
  runId := row.runId
  agent := row.agent
  profile := row.profile
  client := row.client
  status := row.status
  createdAt := row.createdAt
  updatedAt := row.updatedAt
  inputPreview := row.inputPreview
  output := row.output
  error := row.error
  usage := row.usage
  pending := row.pending
  lastSeq := row.lastSeq

/-- What a call returns. -/
inductive Reply where
  | view (view : View)
  | views (views : List View)
  | events (events : List StoredEvent)
  /-- `run_events_window`: before, window, after, and `at_edge`. -/
  | window (before events after : List StoredEvent) (atEdge : Bool)
  | waited (view : View) (eventsTail : List StoredEvent) (timedOut : Bool)
  /-- `wait_run` goes on to wait for a change. -/
  | waits

/-- What a call answers and does. -/
structure Outcome where
  result : Except BridgeError Reply
  ledger : Ledger
  sent : List HermesCall
  withdrawn : Option ApprovalId

/-- A call which changes nothing. -/
def Outcome.reads (ledger : Ledger) (result : Except BridgeError Reply) :
    Outcome :=
  ⟨result, ledger, [], none⟩

/-- The calls of a bridge client. -/
inductive Call where
  | getRun (runId : RunId)
  | listRuns (status : Option String) (limit : Int) (client : Option String)
  | runEvents (runId : RunId) (sinceSeq limit : Int)
  | runEventsWindow (runId : RunId) (sinceSeq limit : Int)
  | eventsBefore (runId : RunId) (seq : Int)
  /-- Up to the first check; `expired` when no time remains there. -/
  | waitRun (runId : RunId) (expired : Bool)
  | answerRun (runId : RunId) (requestId answer : String)
  | steerRun (runId : RunId) (input : String)
  | stopRun (runId : RunId)

/-! ## The parts of the calls -/

/-- `MAX_LIST` -/
def maxList : Nat := 200

/-- `MAX_EVENTS` -/
def maxEvents : Nat := 500
def waitTailEvents : Nat := 20
def contextEvents : Nat := 256
def textContextChars : Nat := 8192

/-- `min(max(limit, 1), most)` -/
def clampLimit (limit : Int) (most : Nat) : Nat :=
  min (max limit 1).toNat most

/-- `_text_run`: the leading streamed text, up to the cap. -/
def textRun (chars : Nat) : List StoredEvent → List StoredEvent
  | [] => []
  | event :: rest =>
    match event.payload.text with
    | none => []
    | some text =>
      if event.event = "message.text" then
        event :: (if textContextChars ≤ chars + text.length then []
          else textRun (chars + text.length) rest)
      else []

/-- `_text_before` -/
def Ledger.textBefore (ledger : Ledger) (runId : RunId) (seq : Nat) :
    List StoredEvent :=
  (textRun 0 (ledger.eventsBefore runId seq contextEvents)).reverse

/-- `_wait_over` -/
def RunRow.waitOver (row : RunRow) : Bool :=
  row.status.isTerminal || row.isPending .clarify none

/-- `_clear_pending` -/
def RunRow.clearPending (requestId : Option String) (row : RunRow) :
    Changes :=
  match row.pending with
  | none => {}
  | some pending =>
    if requestId.isSome && pending.requestId ≠ requestId then {}
    else
      { pending := some none
        status := if row.status.isWaiting then some .running else none }

/-- What `stopping` changes; `status` is never one of waiting. -/
def RunRow.stopChanges (status : RunStatus) (row : RunRow) : Changes where
  status := if row.status = status then none else some status
  pending := if row.pending.isSome then some none else none
  pendingStop := if row.pendingStop.isSome then some none else none

/-- `RunWatcher.update`: the row after the change, if there was one. -/
def Ledger.updateLive (ledger : Ledger) (runId : RunId)
    (decide : RunRow → Changes) (now : Time) : Ledger × Option RunRow :=
  match ledger.record runId none decide true now with
  | none => (ledger, none)
  | some recorded =>
    (recorded.ledger,
      if recorded.changed then some recorded.after else none)

theorem Ledger.getRun_updateLive {ledger : Ledger} {runId : RunId}
    {decide : RunRow → Changes} {now : Time} {after : RunRow}
    (found : (ledger.updateLive runId decide now).1.getRun runId =
      some after) :
    ∃ before, ledger.getRun runId = some before ∧
      (after = before ∨ before.isLive = true ∧
        after = rowAfter before none (decide before) now) := by
  unfold Ledger.updateLive at found
  split at found
  · exact ⟨after, found, .inl rfl⟩
  · rename_i recorded written
    have records := record_eq_some written
    refine ⟨recorded.before, records.found, .inr ⟨records.live rfl, ?_⟩⟩
    exact Option.some.inj (found.symm.trans records.row)

theorem Ledger.events_updateLive {ledger : Ledger} {runId : RunId}
    {decide : RunRow → Changes} {now : Time} :
    (ledger.updateLive runId decide now).1.events runId =
      ledger.events runId := by
  unfold Ledger.updateLive
  split
  · rfl
  · rename_i recorded written
    exact (record_eq_some written).events

section Calls

variable (quote : String → String) (hermes : Hermes) (now : Time)
  (caller : Caller)

/-- `_not_found`: the words for a foreign run too. -/
def notFound (runId : RunId) : BridgeError :=
  ⟨"bridge.run_not_found", "no run " ++ quote runId, 404⟩

/-- The run is in no state for the call. -/
def notRunning (runId : RunId) (status : RunStatus) (why : String) :
    BridgeError :=
  ⟨"bridge.run_not_running",
    "run " ++ quote runId ++ " is " ++ status.text ++ "; " ++ why, 409⟩

/-- Nothing waits for the answer. -/
def noPendingRequest (message : String) : BridgeError :=
  ⟨"bridge.no_pending_request", message, 409⟩

/-- `_owned` -/
def owned (ledger : Ledger) (runId : RunId) : Except BridgeError RunRow :=
  match ledger.getRun runId with
  | none => .error (notFound quote runId)
  | some row =>
    if caller.tier ≠ .admin && row.client ≠ caller.name then
      .error (notFound quote runId)
    else .ok row

/-- `_fresh_view` -/
def freshView (ledger : Ledger) (runId : RunId) (row : Option RunRow) :
    Except BridgeError Reply :=
  match row.or (ledger.getRun runId) with
  | none => .error (notFound quote runId)
  | some row => .ok (.view row.view)

/-- The clients whose runs `list_runs` shows; `none` where it shows none. -/
def listScope (client : Option String) : Option (Option String) :=
  match caller.tier with
  | .admin => some client
  | .bridge =>
    if client.isSome && client ≠ some caller.name then none
    else some (some caller.name)

/-- `run_events_window` -/
def runEventsWindow (ledger : Ledger) (runId : RunId)
    (sinceSeq limit : Int) : Reply :=
  let since := (max sinceSeq 0).toNat
  let size := clampLimit limit maxEvents
  let reach := size + contextEvents
  let events := ledger.eventsSince runId since (reach + 1)
  let rest := (events.take reach).drop size
  let after := textRun 0 rest
  .window (if 0 < since then ledger.textBefore runId (since + 1) else [])
    (events.take size) after
    (events.length ≤ reach && after.length = rest.length)

/-- The generation which answers a pending clarification. -/
def answerGeneration (row : RunRow) : Option Int :=
  (row.pending.bind fun pending => pending.frame.executionGeneration).or
    row.executionGeneration

/-- `answer_run` on an owned run. -/
def answerRun (ledger : Ledger) (row : RunRow)
    (runId : RunId) (requestId answer : String) : Outcome :=
  if row.status.isTerminal || !row.isPending .clarify (some requestId) then
    .reads ledger (.error (noPendingRequest
      ("run " ++ quote runId ++ " has no pending clarification " ++
        quote requestId)))
  else
    match answerGeneration row with
    | none =>
      .reads ledger (.error (noPendingRequest
        ("clarification " ++ quote requestId ++ " of run " ++
          quote runId ++ " carries no execution generation")))
    | some generation =>
      let call : HermesCall :=
        .clarify row.profile runId requestId generation answer
      match hermes call with
      | .error error => ⟨.error error.asBridge, ledger, [call], none⟩
      | .ok _ =>
        let settled := ledger.updateLive runId
          (RunRow.clearPending (some requestId)) now
        ⟨freshView quote settled.1 runId settled.2, settled.1, [call],
          none⟩

/-- `steer_run` on an owned run. -/
def steerRun (ledger : Ledger) (row : RunRow) (runId : RunId)
    (input : String) : Outcome :=
  if row.status ≠ .running then
    .reads ledger (.error
      (notRunning quote runId row.status "steering needs a running run"))
  else
    let call : HermesCall := .steer row.profile runId input
    match hermes call with
    | .error (.refused status code message) =>
      ⟨.error (if code = some "run_not_running" then
          ⟨"bridge.run_not_running", message, 409⟩
        else (HermesError.refused status code message).asBridge),
        ledger, [call], none⟩
    | .error error => ⟨.error error.asBridge, ledger, [call], none⟩
    | .ok _ => ⟨freshView quote ledger runId none, ledger, [call], none⟩

/-- The status which a stop leaves: a live one of Hermes, or `stopping`. -/
def stopStatus (reported : Option String) : RunStatus :=
  match reported.bind RunStatus.ofHermes with
  | none => .stopping
  | some status =>
    if status.isTerminal || status.isWaiting then .stopping else status

/-- `stop_run` on an owned run, with `RunWatcher.stopping`. -/
def stopRun (ledger : Ledger) (row : RunRow) (runId : RunId) : Outcome :=
  if row.status.isTerminal then
    .reads ledger (.error
      (notRunning quote runId row.status "only a live run can be stopped"))
  else
    let call : HermesCall := .stop row.profile runId
    match hermes call with
    | .error error => ⟨.error error.asBridge, ledger, [call], none⟩
    | .ok reported =>
      let stopped := ledger.updateLive runId
        (RunRow.stopChanges (stopStatus reported)) now
      ⟨freshView quote stopped.1 runId stopped.2, stopped.1, [call],
        row.pending.bind Pending.approvalId⟩

/-- A call on one run: refused unless the run is the caller's. -/
def onOwned (ledger : Ledger) (runId : RunId)
    (go : RunRow → Outcome) : Outcome :=
  match owned quote caller ledger runId with
  | .error error => .reads ledger (.error error)
  | .ok row => go row

/-- One call of a bridge client. -/
def perform (ledger : Ledger) : Call → Outcome
  | .getRun runId =>
    onOwned quote caller ledger runId fun row =>
      .reads ledger (.ok (.view row.view))
  | .listRuns status limit client =>
    .reads ledger (.ok (.views
      (match listScope caller client with
      | none => []
      | some scope =>
        (ledger.listRuns scope status (clampLimit limit maxList)).map
          RunRow.view)))
  | .runEvents runId sinceSeq limit =>
    onOwned quote caller ledger runId fun _ =>
      .reads ledger (.ok (.events (ledger.eventsSince runId
        (max sinceSeq 0).toNat (clampLimit limit maxEvents))))
  | .runEventsWindow runId sinceSeq limit =>
    onOwned quote caller ledger runId fun _ =>
      .reads ledger (.ok (runEventsWindow ledger runId sinceSeq limit))
  | .eventsBefore runId seq =>
    onOwned quote caller ledger runId fun _ =>
      .reads ledger (.ok (.events (ledger.textBefore runId seq.toNat)))
  | .waitRun runId expired =>
    onOwned quote caller ledger runId fun row =>
      .reads ledger (.ok
        (if row.waitOver || expired then
          .waited row.view (ledger.lastEvents runId waitTailEvents)
            (!row.waitOver)
        else .waits))
  | .answerRun runId requestId answer =>
    onOwned quote caller ledger runId fun row =>
      answerRun quote hermes now ledger row runId requestId answer
  | .steerRun runId input =>
    onOwned quote caller ledger runId fun row =>
      steerRun quote hermes ledger row runId input
  | .stopRun runId =>
    onOwned quote caller ledger runId fun row =>
      stopRun quote hermes now ledger row runId

end Calls

end Hal0.Bridge
