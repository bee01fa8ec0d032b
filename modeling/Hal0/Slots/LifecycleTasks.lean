import Hal0.Slots.Lifecycle

/-!
# Loads, unloads, restarts and status polls of a slot

Each definition below is a stretch of the source between two awaits, under the
name of the function it belongs to.  The awaits of a load without an effect on
the slot (its checks before the fabric guard) are one; every `_transition`
awaits the event bus after its write.  What the outside decides at an await is
a field of `Reply`.
-/

namespace Hal0.Slots.Lifecycle

open Hal0.Monitor

/-! ## Program counters -/

/-- Where `status` awaits. -/
inductive Probe where
  /-- `_is_active`, with the record `status` read. -/
  | isActive (record : Option Record)
  /-- `unit_failure_reason`. -/
  | failureReason
  /-- `_unit_stopped_cleanly`. -/
  | stoppedCleanly (record : Record)
  /-- `_unit_removed_cleanly`. -/
  | removedCleanly (record : Record)
  /-- `_maybe_load_config` before an adoption. -/
  | adoptConfig
  /-- `_is_active` in `_maybe_adopt_running_slot`. -/
  | adoptActive (cfg : Config)
  /-- `stall_ceiling_cleared` in `_maybe_adopt_running_slot`. -/
  | adoptStall (cfg : Config)
  /-- `_probe_health` in `_maybe_adopt_running_slot`. -/
  | adoptHealth (cfg : Config)
  /-- The rest of `status`, which writes nothing. -/
  | reporting
deriving DecidableEq, Repr

/-- `status` has found drift, and has yet to act on it. -/
def Probe.drifting : Probe → Bool
  | .isActive _ | .reporting => false
  | _ => true

/-- Who runs `status`: a poll, or an operation which still holds the lock. -/
inductive Caller where
  | poll
  | load
  | unload (restarting : Bool)
deriving DecidableEq, Repr

/-- An attempt of `_load`: the model asked for, the config, the model. -/
structure Attempt where
  modelId : Option String
  cfg : Config
  model : Option String
deriving DecidableEq, Repr

/-- What `_await_ready` resolves to. -/
inductive Readiness where
  | ready
  | idle
  | warming
deriving DecidableEq, Repr

def Readiness.state : Readiness → SlotState
  | .ready => .ready
  | .idle => .idle
  | .warming => .warming

/-- How the body of the attempt ends. -/
inductive Ending where
  | resolved (readiness : Readiness)
  | raised (message : String)
  | insane (message : String)
deriving DecidableEq, Repr

/-- Where a task awaits. -/
inductive Pc where
  /-- Inside `status`; `epoch` is that of its liveness answer. -/
  | status (caller : Caller) (epoch : Nat) (probe : Probe)
  /-- `_load` waits for the slot lock. -/
  | loadLock (modelId : Option String)
  /-- `is_abandoned` in `_load`. -/
  | abandoned (modelId : Option String)
  /-- `_load_slot_config` in `_load`. -/
  | loadConfig (modelId : Option String)
  /-- `_should_converge`. -/
  | converge (attempt : Attempt)
  /-- `_is_active` of a slot at its stall ceiling. -/
  | stallActive (attempt : Attempt)
  /-- `terminate` before the attempt. -/
  | tearDown (attempt : Attempt)
  /-- The event of the forced `OFFLINE` before the attempt. -/
  | tornDown (attempt : Attempt)
  /-- The event of a load which starts nothing. -/
  | settled
  /-- The event of `PULLING`. -/
  | pullEvent (attempt : Attempt)
  /-- `_pull_runner`. -/
  | pulling (attempt : Attempt)
  /-- The model info, the load check and the memory warnings. -/
  | checks (attempt : Attempt)
  /-- `_guard_fabric_clock`. -/
  | fabricGuard (attempt : Attempt)
  /-- The entry of `_preload_admit`. -/
  | enterAdmit (attempt : Attempt)
  /-- The event of `STARTING`. -/
  | startingEvent (attempt : Attempt)
  /-- `_spawn_locked`. -/
  | spawn (attempt : Attempt)
  /-- The event of `WARMING`. -/
  | warmingEvent (attempt : Attempt)
  /-- `_await_ready`. -/
  | awaitReady (attempt : Attempt)
  /-- `unit_failure_reason` after a readiness wait which gave up. -/
  | unitFailure (attempt : Attempt)
  /-- The event of the state the load resolved to. -/
  | resolvedEvent (attempt : Attempt) (readiness : Readiness)
  /-- The exit of `_preload_admit`. -/
  | leaveAdmit (attempt : Attempt) (ending : Ending)
  /-- `_persist_model_default`. -/
  | persistDefault (readiness : Readiness)
  /-- `terminate` of a unit which failed the output-sanity gate. -/
  | sanityStop (attempt : Attempt) (message : String)
  /-- `_read_last_crash_line`. -/
  | crashLine (attempt : Attempt) (failures : Nat) (message : String)
      (sanityFailed : Bool)
  /-- The event of the state a failed operation leaves. -/
  | raising
  /-- `unload` waits for the slot lock. -/
  | unloadLock (restarting : Bool)
  /-- The event of `UNLOADING`. -/
  | unloadingEvent (restarting : Bool)
  /-- `terminate` in `unload`. -/
  | unloadStop (restarting : Bool)
  /-- The event of `OFFLINE` in `unload`. -/
  | unloadedEvent (restarting : Bool)
  /-- `restart` of a slot in `ERROR` waits for the slot lock. -/
  | restartLock
  /-- `terminate` in `restart`. -/
  | restartStop
  /-- The event of `OFFLINE` in `restart`. -/
  | restartEvent
  /-- `_watch_slow_stop` waits for the teardown. -/
  | slowStop (token : StopToken)
  /-- `_watch_slow_stop` waits for the slot lock. -/
  | slowStopLock (token : StopToken)
deriving DecidableEq, Repr

/-- How `_guard_fabric_clock` ends. -/
inductive GuardAnswer where
  | unguarded
  | reserved (side : FabricClass)
  | hazard
  | raised (message : String)
deriving DecidableEq, Repr

/-- How a provider's call ends. -/
inductive Outcome where
  | returned
  | raised (message : String)
  | insane (message : String)
deriving DecidableEq, Repr

/-- What the outside answers at an await; each counter reads its fields. -/
structure Reply where
  yes : Bool := false
  config : Option Config := none
  failureReason : Option String := none
  needsPull : Bool := false
  servable : Option String := none
  guard : GuardAnswer := .unguarded
  outcome : Outcome := .returned
  readiness : Readiness := .ready
  slow : Bool := false
deriving DecidableEq, Repr

abbrev Turn := Slot × Option Pc

/-- A step of `status`: the slot it leaves, and its next await if any. -/
abbrev StatusTurn := Slot × Option Probe

/-! ## Status -/

/-- The branch of `status` which the record and the unit's liveness choose. -/
inductive Drift where
  | steady
  | gone
  | failed
  | running
deriving DecidableEq, Repr

/-- `status` compares the record it read with the unit's liveness. -/
def drift (record : Option Record) (active : Bool) : Drift :=
  match record.map Record.state, active with
  | none, true | some .offline, true | some .error, true => .running
  | some .ready, false | some .serving, false | some .idle, false => .gone
  | some .error, false => .failed
  | _, _ => .steady

def stoppedMessage : String :=
  "container stopped (auto-reloads on next request)"

def slowStopMessage : String :=
  "stop took longer than the terminate budget; " ++
    "converged to offline (auto-reloads on next request)"

namespace Slot

/-- A forced `_transition` of `status`. -/
def reconcile (slot : Slot) (write : Write) : StatusTurn :=
  (slot.write { write with force := true }, some .reporting)

/-- `status` from its liveness probe on. -/
def reconcileWith (slot : Slot) (record : Option Record) (active : Bool) :
    StatusTurn :=
  match drift record active with
  | .steady => (slot, some .reporting)
  | .gone => (slot, some .failureReason)
  | .failed => (slot, some (.stoppedCleanly (record.getD .blank)))
  | .running => (slot, some .adoptConfig)

/-- The unit of a ready slot is inactive: given up on, or stopped. -/
def reconcileGone (slot : Slot) (reason : Option String) : StatusTurn :=
  match reason with
  | some reason => slot.reconcile { toState := .error, message := reason }
  | none =>
    slot.reconcile { toState := .offline, message := stoppedMessage }

/-- A slot in `ERROR` whose unit was not stopped or removed cleanly. -/
def reconcileStalled (slot : Slot) (record : Record) : StatusTurn :=
  if record.stallCeiling then
    slot.reconcile
      { toState := .error, modelId := record.modelId, port := record.port
        message := record.message }
  else (slot, some .reporting)

/-- The unit of a slot in `ERROR` is inactive: was it stopped cleanly? -/
def reconcileFailed (slot : Slot) (record : Record) (cleanly : Bool) :
    StatusTurn :=
  if cleanly then
    slot.reconcile
      { toState := .offline
        message :=
          if record.slowStop.isSome then slowStopMessage
          else stoppedMessage }
  else if record.slowStop.isSome then (slot, some (.removedCleanly record))
  else slot.reconcileStalled record

/-- Was the unit of an abandoned stop removed cleanly? -/
def reconcileRemoved (slot : Slot) (record : Record) (cleanly : Bool) :
    StatusTurn :=
  if cleanly then
    slot.reconcile { toState := .offline, message := slowStopMessage }
  else slot.reconcileStalled record

/-- `_maybe_adopt_running_slot` up to its own liveness probe. -/
def adopt (slot : Slot) (cfg : Option Config) : StatusTurn :=
  match cfg with
  | none => (slot, some .reporting)
  | some cfg =>
    if cfg.modelDefault.isNone then (slot, some .reporting)
    else (slot, some (.adoptActive cfg))

/-- `_maybe_adopt_running_slot` from its liveness probe on. -/
def adoptLive (slot : Slot) (cfg : Config) (active : Bool) : StatusTurn :=
  if !active then (slot, some .reporting)
  else if slot.record.any Record.sanityFailed then (slot, some .reporting)
  else if slot.record.any Record.stallCeiling then
    (slot, some (.adoptStall cfg))
  else (slot, some (.adoptHealth cfg))

/-- The forced transition of an adoption. -/
def adoptAs (slot : Slot) (cfg : Config) (healthy : Bool) : StatusTurn :=
  slot.reconcile
    { toState := if healthy then .ready else .warming
      modelId := cfg.modelDefault
      port := cfg.port
      message :=
        if healthy then "adopted running slot (container unit active)"
        else "adopted running slot (container active, model server not ready)"
      provider := some cfg.provider }

/-- Run `status` from where it awaits. -/
def resumeStatus (slot : Slot) : Probe → Reply → StatusTurn
  | .isActive record, reply => slot.reconcileWith record reply.yes
  | .failureReason, reply => slot.reconcileGone reply.failureReason
  | .stoppedCleanly record, reply => slot.reconcileFailed record reply.yes
  | .removedCleanly record, reply => slot.reconcileRemoved record reply.yes
  | .adoptConfig, reply => slot.adopt reply.config
  | .adoptActive cfg, reply => slot.adoptLive cfg reply.yes
  | .adoptStall cfg, reply =>
    if reply.yes then slot.adoptAs cfg true else (slot, some .reporting)
  | .adoptHealth cfg, reply => slot.adoptAs cfg reply.yes
  | .reporting, _ => (slot, none)

/-- `status` reads the record and asks for the unit's liveness. -/
def status (slot : Slot) (caller : Caller) : Turn :=
  (slot, some (.status caller slot.epoch (.isActive slot.record)))

/-- `status` goes on, or returns: `restart` then goes on to its load. -/
def statusTurn (caller : Caller) (epoch : Nat) (turn : StatusTurn) : Turn :=
  match turn.2, caller with
  | some probe, _ => (turn.1, some (.status caller epoch probe))
  | none, .unload true => (turn.1, some (.loadLock none))
  | none, _ => (turn.1, none)

/-- The epoch a step of `status` goes on with. -/
def statusEpoch (slot : Slot) (epoch : Nat) : Probe → Nat
  | .isActive _ => slot.epoch
  | _ => epoch

/-! ## Load -/

/-- `_load` with the slot lock; a loaded slot skips the client probe. -/
def loadLocked (slot : Slot) (modelId : Option String) : Turn :=
  if slot.state.isDispatchable then
    (slot.enter, some (.loadConfig modelId))
  else (slot.enter, some (.abandoned modelId))

/-- The failure handler of `_load`, once the unit is taken care of. -/
def failLoad (slot : Slot) (attempt : Attempt) (message : String)
    (sanityFailed : Bool) : Turn :=
  let counted := slot.countFailure
  let failures := counted.loadFailures.elim 0 Prod.fst
  (counted, some (.crashLine attempt failures message sanityFailed))

/-- An exception of the attempt reaches its handler. -/
def raise (slot : Slot) (attempt : Attempt) (message : String) : Turn :=
  slot.releaseFabricPending.failLoad attempt message false

/-- `SlotOutputSanityFailed` reaches its handler: the unit is stopped. -/
def raiseInsane (slot : Slot) (attempt : Attempt) (message : String) : Turn :=
  (slot.releaseFabricPending, some (.sanityStop attempt message))

/-- The text of `IllegalSlotTransition`, after the slot's name. -/
def illegalMessage (current toState : SlotState) : String :=
  "illegal transition " ++ current.value ++ " → " ++ toState.value

/-- A `_transition` of the attempt; `fails` is where its exception goes. -/
def attemptTransition (slot : Slot) (attempt : Attempt) (toState : SlotState)
    (next : Pc) (fails : Turn) : Turn :=
  match slot.transition
      { toState := toState, modelId := attempt.model
        port := attempt.cfg.port } with
  | some moved => (moved, some next)
  | none => fails

/-- `_load` from its configuration check to the next await. -/
def proceed (slot : Slot) (attempt : Attempt) (reply : Reply) : Turn :=
  match attempt.model with
  | none =>
    (slot.write
        { toState := .offline, port := attempt.cfg.port
          message := "no default model — pick one from the dropdown"
          force := true },
      some .settled)
  | some model =>
    let attempt :=
      { attempt with model := some (reply.servable.getD model) }
    if attempt.cfg.trioShadow then
      (slot.write
          { toState := .ready, modelId := attempt.model
            port := attempt.cfg.port
            message := "served by NPU FLM anchor (trio shadow)"
            force := true },
        some .settled)
    else if reply.needsPull && attempt.cfg.provider ≠ "comfyui" then
      slot.attemptTransition attempt .pulling (.pullEvent attempt)
        (slot.raise attempt (illegalMessage slot.state .pulling))
    else (slot, some (.checks attempt))

/-- A load goes on where the gate is open. -/
def gated (slot : Slot) (attempt : Attempt) : Turn :=
  if slot.gateOpen then (slot, some (.tearDown attempt)) else (slot, none)

/-- `_load` from its config to the next await, by the slot's state. -/
def loadFrom (slot : Slot) (attempt : Attempt) (reply : Reply) : Turn :=
  match slot.state with
  | .ready | .serving | .idle => (slot, some (.converge attempt))
  | .error =>
    if slot.record.any Record.stallCeiling then
      (slot, some (.stallActive attempt))
    else slot.gated attempt
  | .pulling | .starting | .warming => slot.gated attempt
  | .offline | .unloading => slot.proceed attempt reply

/-- The config is read, or its read raises out of the load. -/
def loadWith (slot : Slot) (modelId : Option String) (reply : Reply) : Turn :=
  match reply.config with
  | none => (slot, none)
  | some cfg =>
    slot.loadFrom ⟨modelId, cfg, modelId.or cfg.modelDefault⟩ reply

/-- The forced `OFFLINE` before the attempt. -/
def forceOffline (slot : Slot) : Slot :=
  slot.write { toState := .offline, force := true }

/-- An await before the admission ends, well or with an exception. -/
def onOutcome (slot : Slot) (attempt : Attempt) (next : Turn) :
    Outcome → Turn
  | .returned => next
  | .raised message => slot.raise attempt message
  | .insane message => slot.raiseInsane attempt message

/-- The same inside the admission, whose exit comes first. -/
def onOutcomeInside (slot : Slot) (attempt : Attempt) (next : Turn) :
    Outcome → Turn
  | .returned => next
  | .raised message => (slot, some (.leaveAdmit attempt (.raised message)))
  | .insane message => (slot, some (.leaveAdmit attempt (.insane message)))

/-- A `_transition` inside the admission. -/
def transitionInside (slot : Slot) (attempt : Attempt) (toState : SlotState)
    (next : Pc) : Turn :=
  slot.attemptTransition attempt toState next
    (slot, some (.leaveAdmit attempt
      (.raised (illegalMessage slot.state toState))))

/-- `_guard_fabric_clock` ends; a hazard is refused without a failure. -/
def guarded (slot : Slot) (attempt : Attempt) : GuardAnswer → Turn
  | .unguarded => (slot, some (.enterAdmit attempt))
  | .reserved side =>
    ({ slot with fabricPending := some side }, some (.enterAdmit attempt))
  | .raised message => slot.raise attempt message
  | .hazard =>
    (slot.releaseFabricPending.write
        { toState := .offline, port := attempt.cfg.port, force := true },
      some .raising)

/-- The readiness wait resolves. -/
def resolveReady (slot : Slot) (attempt : Attempt) (readiness : Readiness) :
    Turn :=
  slot.transitionInside attempt readiness.state
    (.resolvedEvent attempt readiness)

/-- The attempt has left its admission. -/
def afterAdmit (slot : Slot) (attempt : Attempt) : Ending → Turn
  | .raised message => slot.raise attempt message
  | .insane message => slot.raiseInsane attempt message
  | .resolved readiness =>
    if attempt.modelId.isSome &&
        attempt.modelId ≠ attempt.cfg.modelDefault then
      (slot, some (.persistDefault readiness))
    else slot.status .load

/-- The forced `ERROR` of a failed load. -/
def recordFailure (slot : Slot) (attempt : Attempt) (failures : Nat)
    (message : String) (sanityFailed : Bool) : Turn :=
  (slot.write
      { toState := .error, modelId := attempt.model, port := attempt.cfg.port
        message := message, sanityFailed := sanityFailed
        loadFailures := some failures
        parked := crashLoopParkAfter ≤ failures, force := true },
    some .raising)

/-! ## Unload and restart -/

/-- `unload` with the slot lock. -/
def unloadLocked (slot : Slot) (restarting : Bool) : Turn :=
  if slot.state = .offline then slot.enter.status (.unload restarting)
  else
    (slot.enter.write { toState := .unloading, force := true },
      some (.unloadingEvent restarting))

/-- `terminate` ended; a stop which outlives its budget is watched. -/
def unloadStopped (slot : Slot) (restarting : Bool) (reply : Reply) : Turn :=
  match reply.outcome with
  | .returned => (slot.forceOffline, some (.unloadedEvent restarting))
  | .raised message | .insane message =>
    let failed := slot.write
      { toState := .error, message := message
        slowStop := if reply.slow then some slot.nextToken else none
        force := true }
    if reply.slow then
      ({ failed with
          slowStops := slot.nextToken :: failed.slowStops
          nextToken := slot.nextToken + 1 },
        some .raising)
    else (failed, some .raising)

/-- `_watch_slow_stop` with the slot lock. -/
def finishSlowStop (slot : Slot) (token : StopToken) : Turn :=
  if slot.state = .error ∧
      (slot.record.bind Record.slowStop) = some token then
    (slot.enter.write
        { toState := .offline, message := slowStopMessage, force := true },
      some .raising)
  else (slot.enter, none)

/-! ## The program -/

/-- Run a task from where it awaits. -/
def resume (slot : Slot) : Pc → Reply → Turn
  | .status caller epoch probe, reply =>
    statusTurn caller (slot.statusEpoch epoch probe)
      (slot.resumeStatus probe reply)
  | .loadLock modelId, _ => slot.loadLocked modelId
  | .abandoned modelId, reply =>
    if reply.yes then slot.status .load
    else (slot, some (.loadConfig modelId))
  | .loadConfig modelId, reply => slot.loadWith modelId reply
  | .converge attempt, reply =>
    if reply.yes then (slot, some (.tearDown attempt))
    else slot.status .load
  | .stallActive attempt, reply =>
    if reply.yes then (slot, none) else slot.gated attempt
  | .tearDown attempt, _ => (slot.forceOffline, some (.tornDown attempt))
  | .tornDown attempt, reply => slot.proceed attempt reply
  | .settled, _ => slot.status .load
  | .pullEvent attempt, _ => (slot, some (.pulling attempt))
  | .pulling attempt, reply =>
    slot.onOutcome attempt (slot, some (.checks attempt)) reply.outcome
  | .checks attempt, reply =>
    slot.onOutcome attempt (slot, some (.fabricGuard attempt))
      reply.outcome
  | .fabricGuard attempt, reply => slot.guarded attempt reply.guard
  | .enterAdmit attempt, reply =>
    slot.onOutcome attempt
      (slot.transitionInside attempt .starting (.startingEvent attempt))
      reply.outcome
  | .startingEvent attempt, _ =>
    (slot.releaseFabricPending, some (.spawn attempt))
  | .spawn attempt, reply =>
    slot.onOutcomeInside attempt
      (slot.transitionInside attempt .warming (.warmingEvent attempt))
      reply.outcome
  | .warmingEvent attempt, _ => (slot, some (.awaitReady attempt))
  | .awaitReady attempt, reply =>
    slot.onOutcomeInside attempt
      (if reply.readiness = .warming then (slot, some (.unitFailure attempt))
        else slot.resolveReady attempt reply.readiness)
      reply.outcome
  | .unitFailure attempt, reply =>
    match reply.failureReason with
    | some reason => (slot, some (.leaveAdmit attempt (.raised reason)))
    | none => slot.resolveReady attempt .warming
  | .resolvedEvent attempt readiness, _ =>
    (slot, some (.leaveAdmit attempt (.resolved readiness)))
  | .leaveAdmit attempt ending, _ => slot.afterAdmit attempt ending
  | .persistDefault _, _ => slot.status .load
  | .sanityStop attempt message, _ => slot.failLoad attempt message true
  | .crashLine attempt failures message sanityFailed, _ =>
    slot.recordFailure attempt failures message sanityFailed
  | .raising, _ => (slot, none)
  | .unloadLock restarting, _ => slot.unloadLocked restarting
  | .unloadingEvent restarting, _ => (slot, some (.unloadStop restarting))
  | .unloadStop restarting, reply => slot.unloadStopped restarting reply
  | .unloadedEvent restarting, _ => slot.status (.unload restarting)
  | .restartLock, _ => (slot.enter, some .restartStop)
  | .restartStop, _ => (slot.forceOffline, some .restartEvent)
  | .restartEvent, _ => (slot, some (.loadLock none))
  | .slowStop token, reply =>
    match reply.outcome with
    | .returned => (slot, some (.slowStopLock token))
    | _ => (slot, none)
  | .slowStopLock token, _ => slot.finishSlowStop token

/-- The calls a slot receives, and the watchers it starts. -/
def start (slot : Slot) : Pc → Option Slot
  | .status .poll epoch (.isActive record) =>
    if epoch = slot.epoch ∧ record = slot.record then some slot else none
  | .loadLock _ | .unloadLock false => some slot
  | .unloadLock true =>
    if slot.state ≠ .error then some slot.resetLoadFailures else none
  | .restartLock =>
    if slot.state = .error then some slot.resetLoadFailures else none
  | .slowStop token =>
    if token ∈ slot.slowStops then
      some { slot with slowStops := slot.slowStops.erase token }
    else none
  | _ => none

end Slot

namespace Pc

/-- Inside the slot lock. -/
def holds : Pc → Bool
  | .status caller _ _ => caller ≠ .poll
  | .loadLock _ | .unloadLock _ | .restartLock | .slowStopLock _
  | .slowStop _ => false
  | _ => true

def acquires : Pc → Bool
  | .loadLock _ | .unloadLock _ | .restartLock | .slowStopLock _ => true
  | _ => false

end Pc

/-- What happens beside the tasks. -/
inductive Event where
  | elapse (duration : Nat)
  | unitChanges (unit : UnitHealth)
  | resetLoadFailures
deriving DecidableEq, Repr

namespace Slot

/-- What happens beside the tasks. -/
def occur (slot : Slot) : Event → Slot
  | .elapse duration => { slot with now := slot.now + duration }
  | .unitChanges unit => { slot with unit := unit }
  | .resetLoadFailures => slot.resetLoadFailures

/-- The process ends and a new one reads the record from disk. -/
def restart (slot : Slot) : Slot :=
  { boot slot.record slot.unit with
    now := slot.now, nextToken := slot.nextToken, log := slot.log
    epoch := slot.epoch }

/-! ## The program around the slot lock -/

theorem outside_cases {pc : Pc} (outside : pc.holds = false)
    (unlocked : pc.acquires = false) :
    (∃ epoch probe, pc = .status .poll epoch probe) ∨
      ∃ token, pc = .slowStop token := by
  cases pc with
  | status caller epoch probe =>
    obtain rfl : caller = .poll := by simpa [Pc.holds] using outside
    exact Or.inl ⟨epoch, probe, rfl⟩
  | slowStop token => exact Or.inr ⟨token, rfl⟩
  | loadLock modelId => cases unlocked
  | unloadLock restarting => cases unlocked
  | restartLock => cases unlocked
  | slowStopLock token => cases unlocked
  | _ => cases outside

theorem resume_outside {slot : Slot} {pc next : Pc} {reply : Reply}
    (outside : pc.holds = false) (unlocked : pc.acquires = false)
    (awaited : (slot.resume pc reply).2 = some next) :
    next.holds = false := by
  rcases outside_cases outside unlocked with
    ⟨epoch, probe, rfl⟩ | ⟨token, rfl⟩
  · simp only [resume, statusTurn] at awaited
    split at awaited
    · cases awaited
      rfl
    · cases awaited
      rfl
    · cases awaited
  · simp only [resume] at awaited
    split at awaited
    · cases awaited
      rfl
    · cases awaited

end Slot

/-- The lifecycle of one slot: its calls, its polls and its lock. -/
def program : Program Slot Pc Reply Event where
  holds := Pc.holds
  acquires := Pc.acquires
  atomic := fun _ => false
  start := Slot.start
  resume := fun slot pc reply => some (slot.resume pc reply)
  abandon := fun slot _ => some slot
  occur := fun slot event => some (slot.occur event)
  restart := Slot.restart
  startsOutside := by
    intro slot pc started begun
    refine ⟨?_, rfl⟩
    unfold Slot.start at begun
    split at begun <;> first | rfl | cases begun
  entersByLock := by
    intro slot pc reply resumed next turned held
    by_contra neither
    rw [not_or, Bool.not_eq_true, Bool.not_eq_true] at neither
    have same := Option.some.inj turned
    have outside := Slot.resume_outside neither.2 neither.1
      (congrArg Prod.snd same)
    rw [outside] at held
    cases held

theorem resumed_eq {slot after : Slot} {pc : Pc} {reply : Reply}
    {next : Option Pc}
    (resumed : program.resume slot pc reply = some (after, next)) :
    after = (slot.resume pc reply).1 ∧ next = (slot.resume pc reply).2 := by
  have same := Option.some.inj resumed
  exact ⟨(congrArg Prod.fst same).symm, (congrArg Prod.snd same).symm⟩

abbrev SlotWorld := World Slot Pc
abbrev SlotAction := Action Pc Reply Event

end Hal0.Slots.Lifecycle
