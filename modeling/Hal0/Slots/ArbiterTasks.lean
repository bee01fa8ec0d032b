import Hal0.Slots.Arbiter

/-!
# The tasks of the GPU arbiter

Each definition below is a stretch of the source between two awaits, under
the name of the function it belongs to.  `resume` says which stretch runs from
which program counter, `abandon` what a cancelled task leaves behind.
-/

namespace Hal0.Slots.Arbiter

open Hal0.Monitor

namespace GpuArbiter

/-! ## Switching into image mode -/

/-- The `finally` of `ensure_img`. -/
def leaveSwitch (arbiter : GpuArbiter) : GpuArbiter :=
  { arbiter with
    enteringImg := false
    quietSince := some arbiter.now
    handoffUntil :=
      if arbiter.state.mode = .img then some (arbiter.now + gateHandoff)
      else arbiter.handoffUntil }

/--
`ensure_img` ends.  An image request goes on to its render, also without an
image slot; any other error ends the request and its `image_job`.
-/
def endEnsure (arbiter : GpuArbiter) (call : EnsureCall)
    (result : EnsureResult) : Turn :=
  match call.job, result with
  | none, _ => (arbiter.leaveSwitch, none)
  | some job, .returned => (arbiter.leaveSwitch, some (.rendering job true))
  | some job, .imgSlotMissing =>
    (arbiter.leaveSwitch, some (.rendering job false))
  | some job, .raised => (arbiter.leaveSwitch.closeJob job, none)

/-- A load of the slot begins; the slot counts as reloaded from here on. -/
def attemptLoad (arbiter : GpuArbiter) (slot : String) : GpuArbiter :=
  { arbiter with
    unloaded := arbiter.unloaded.filter fun other => other ≠ slot }

/-- The reloads of `_rollback_to_llm`, then its state write. -/
def rollbackLoads (arbiter : GpuArbiter) (call : EnsureCall) (reply : Reply) :
    List String → Turn
  | slot :: rest =>
    (arbiter.attemptLoad slot, some (.rollbackLoad call slot rest))
  | [] =>
    (arbiter.persist ⟨.llm, false, []⟩ reply.written).endEnsure call .raised

/-- The slots are loaded again after a failure. -/
def rollbackToLlm (arbiter : GpuArbiter) (call : EnsureCall)
    (slots : List String) (img : String) (unloadImg : Bool) (reply : Reply) :
    Turn :=
  if unloadImg then (arbiter, some (.rollbackUnload call img slots))
  else arbiter.rollbackLoads call reply slots

/-- The image slot is loaded. -/
def coldStartImg (arbiter : GpuArbiter) (call : EnsureCall) (img : String)
    (saved : List String) : Turn :=
  (arbiter.attemptLoad img, some (.loadImg call img saved))

/-- One round of the readiness poll of `_cold_start_img`. -/
def pollImg (arbiter : GpuArbiter) (call : EnsureCall) (img : String)
    (saved : List String) (deadline : Nat) (reply : Reply) : Turn :=
  let state := (arbiter.slots img).state
  if state.isDispatchable then arbiter.endEnsure call .returned
  else if isTerminal state then
    arbiter.rollbackToLlm call saved img true reply
  else if deadline ≤ arbiter.now then
    arbiter.rollbackToLlm call saved img true reply
  else (arbiter, some (.imgReady call img saved deadline))

/-- `load(img_name)` returned or raised. -/
def loadImgReturned (arbiter : GpuArbiter) (call : EnsureCall) (img : String)
    (saved : List String) (reply : Reply) : Turn :=
  let left := arbiter.setSlot img reply.status
  if reply.raised then left.rollbackToLlm call saved img false reply
  else left.pollImg call img saved (left.now + imgReadyTimeout) reply

/-- What follows the unloads: the cold start of a flip, or `_revive_img`. -/
def afterUnloads (arbiter : GpuArbiter) (call : EnsureCall) (branch : Branch)
    (saved : List String) (img : String) : Turn :=
  match branch with
  | .flip =>
    if (arbiter.slots img).state.isDispatchable then
      arbiter.endEnsure call .returned
    else arbiter.coldStartImg call img saved
  | .already => (arbiter, some (.reviveConfigs call))

/-- The slots are unloaded one after another. -/
def unloadForImg (arbiter : GpuArbiter) (call : EnsureCall) (branch : Branch)
    (slots saved : List String) (img : String) : Turn :=
  match slots with
  | slot :: rest => (arbiter, some (.unload call branch slot rest saved img))
  | [] => arbiter.afterUnloads call branch saved img

/-- `unload(slot)` returned, or raised and aborts the switch. -/
def unloadReturned (arbiter : GpuArbiter) (call : EnsureCall)
    (branch : Branch) (slot : String) (rest saved : List String)
    (img : String) (reply : Reply) : Turn :=
  if reply.raised then
    let left := arbiter.setSlot slot reply.status
    left.rollbackToLlm call (left.reloadAfterAbort saved [slot]) img false
      reply
  else
    let left := arbiter.setSlot slot { reply.status with state := .offline }
    unloadForImg { left with unloaded := slot :: left.unloaded } call branch
      rest saved img

/-- The slots of `_await_loads` whose load is still in progress. -/
def stillLoading (arbiter : GpuArbiter) (slots : List String) : List String :=
  slots.filter fun slot =>
    (arbiter.slots slot).state.isInFlight && (arbiter.slots slot).busy

/-- One round of `_await_loads`, and the unloads once it returns. -/
def awaitLoads (arbiter : GpuArbiter) (call : EnsureCall) (branch : Branch)
    (slots saved : List String) (img : String) (deadline : Nat)
    (reply : Reply) : Turn :=
  let loading := arbiter.stillLoading slots
  if loading = [] then arbiter.unloadForImg call branch slots saved img
  else if deadline ≤ arbiter.now then
    arbiter.rollbackToLlm call (arbiter.reloadAfterAbort saved loading) img
      false reply
  else (arbiter, some (.awaitLoads call branch slots saved img deadline))

/-- One round of the drain; it gives way at its deadline. -/
def drain (arbiter : GpuArbiter) (call : EnsureCall) (saved : List String)
    (img : String) (deadline : Nat) (reply : Reply) : Turn :=
  if (saved.any fun slot => 0 < (arbiter.slots slot).inFlight) &&
      arbiter.now < deadline then
    (arbiter, some (.drain call saved img deadline))
  else
    arbiter.awaitLoads call .flip saved saved img (arbiter.now + loadWait)
      reply

/-- `_ensure_img_locked` from the configs of its own read to the drain. -/
def switchToImg (arbiter : GpuArbiter) (call : EnsureCall) (reply : Reply) :
    Turn :=
  match reply.configs with
  | none => arbiter.endEnsure call .raised
  | some configs =>
    let refreshed := arbiter.refreshGroupCache configs
    match imgConfig configs with
    | none => refreshed.endEnsure call .imgSlotMissing
    | some config =>
      if reply.crashLooping then refreshed.endEnsure call .raised
      else
        let llmSlots := refreshed.llmSlotsToUnload
        let target := refreshed.persist ⟨.img, call.pin, llmSlots⟩
          reply.written
        if reply.written then
          target.drain call llmSlots (orDefault config.name "img")
            (target.now + drainTimeout) reply
        else target.endEnsure call .raised

/-- One round of `_let_served_requests_dispatch`, up to `iter_configs`. -/
def letServedRequestsDispatch (arbiter : GpuArbiter) (call : EnsureCall)
    (deadline : Nat) : Turn :=
  let pruned := arbiter.pruneDemandLeases
  if arbiter.servedRequestsPending then
    if deadline ≤ arbiter.now then (pruned, some (.switchConfigs call true))
    else (pruned, some (.letServed call deadline))
  else (pruned, some (.switchConfigs call false))

/-- The saved slots which are still on the GPU in image mode. -/
def finishUnloads (arbiter : GpuArbiter) (call : EnsureCall) : Turn :=
  let saved := arbiter.state.savedLlmSlots
  match saved.filter arbiter.onGpu with
  | [] => (arbiter, some (.reviveConfigs call))
  | slot :: rest => (arbiter, some (.finishConfigs call (slot :: rest) saved))

/-- `_finish_unloads` from its configs on. -/
def finishUnloadsFrom (arbiter : GpuArbiter) (call : EnsureCall)
    (loaded saved : List String) (reply : Reply) : Turn :=
  match reply.configs with
  | none => arbiter.endEnsure call .raised
  | some configs =>
    let img := (imgConfig configs).elim "img" fun config =>
      orDefault config.name "img"
    arbiter.awaitLoads call .already loaded saved img
      (arbiter.now + loadWait) reply

/-- `_revive_img` from its configs on. -/
def reviveImg (arbiter : GpuArbiter) (call : EnsureCall) (reply : Reply) :
    Turn :=
  match reply.configs with
  | none => arbiter.endEnsure call .raised
  | some configs =>
    let refreshed := arbiter.refreshGroupCache configs
    match imgConfig configs with
    | none => refreshed.endEnsure call .returned
    | some config =>
      let img := orDefault config.name "img"
      if (refreshed.slots img).state.isDispatchable then
        refreshed.endEnsure call .returned
      else
        refreshed.coldStartImg call img refreshed.state.savedLlmSlots

/-- `_ensure_img_locked` from the lock to its first await. -/
def ensureImgLocked (arbiter : GpuArbiter) (call : EnsureCall)
    (reply : Reply) : Turn :=
  let entering := { arbiter with enteringImg := true }
  if entering.state.mode = .img then
    if call.pin && !entering.state.pinned then
      let pinned := entering.persist { entering.state with pinned := true }
        reply.written
      if reply.written then pinned.finishUnloads call
      else pinned.endEnsure call .raised
    else entering.finishUnloads call
  else
    entering.letServedRequestsDispatch call (entering.now + demandLease)

/-! ## Restoring the LLM set -/

/-- A demand is answered. -/
def endDemand (arbiter : GpuArbiter) (task : DemandId) : GpuArbiter :=
  { arbiter with demandDone := task :: arbiter.demandDone }

/-- A restore returned or raised; the caller ends with it. -/
def endRestore (arbiter : GpuArbiter) : RestoreCall → Turn
  | .demand task => (arbiter.endDemand task, none)
  | _ => (arbiter, none)

/-- `_restore_llm_locked`, up to `iter_configs`. -/
def restoreLlmLocked (arbiter : GpuArbiter) (call : RestoreCall) : Turn :=
  (arbiter, some (.restoreConfigs call))

/-- Neither quiet time nor hand-off runs. -/
def clearClocks (arbiter : GpuArbiter) : GpuArbiter :=
  { arbiter with quietSince := none, handoffUntil := none }

/-- The reloads of `_restore_llm_locked`, then its state write. -/
def restoreLoads (arbiter : GpuArbiter) (call : RestoreCall)
    (reply : Reply) : List String → Turn
  | slot :: rest =>
    (arbiter.attemptLoad slot, some (.restoreLoad call slot rest))
  | [] =>
    let restored := arbiter.persist ⟨.llm, false, []⟩ reply.written
    if reply.written then restored.clearClocks.endRestore call
    else restored.endRestore call

/-- `restore_llm` from the lock to its first await. -/
def restoreLlm (arbiter : GpuArbiter) (force : Bool) : Turn :=
  if arbiter.state.mode ≠ .img then (arbiter, none)
  else if arbiter.state.pinned && !force then (arbiter, none)
  else if force then arbiter.restoreLlmLocked (.restoreLlm true)
  else if 0 < arbiter.imageJobs then (arbiter, none)
  else (arbiter, some .restoreWork)

/-- `restore_llm` from the configs of `_hal0_image_work` on. -/
def restoreUnlessWork (arbiter : GpuArbiter) (reply : Reply) : Turn :=
  match reply.configs with
  | none => (arbiter, none)
  | some configs =>
    if arbiter.hal0ImageWork configs then (arbiter, none)
    else arbiter.restoreLlmLocked (.restoreLlm false)

/-- `_restore_llm_locked` from its configs to `/free`. -/
def freeComfyui (arbiter : GpuArbiter) (call : RestoreCall)
    (reply : Reply) : Turn :=
  match reply.configs with
  | none => arbiter.endRestore call
  | some configs =>
    (arbiter.refreshGroupCache configs,
      some (.restoreFree call arbiter.state.savedLlmSlots))

/-- `_restore_on_demand` from the head of its loop. -/
def restoreOnDemand (arbiter : GpuArbiter) (task : DemandId)
    (recheckAt : Nat) : Turn :=
  if arbiter.demandWaiters.count task = 0 then (arbiter.endDemand task, none)
  else if arbiter.state.mode ≠ .img ∨ arbiter.state.pinned = true then
    (arbiter.endDemand task, none)
  else if 0 < arbiter.handoffRemaining ∨ 0 < arbiter.imageJobs ∨
      arbiter.enteringImg = true ∨ arbiter.now < recheckAt then
    (arbiter, some (.demandLoop task recheckAt))
  else (arbiter, some (.decisionLock (.demand task)))

/-- `restore_llm_when_idle` found image work. -/
def idleBusy (arbiter : GpuArbiter) (force : Bool) (deadline : Nat) : Turn :=
  if deadline ≤ arbiter.now then (arbiter, none)
  else (arbiter, some (.idleSleep force deadline))

/-- The head of the loop of `restore_llm_when_idle`. -/
def idleCheck (arbiter : GpuArbiter) (force : Bool) (deadline : Nat) : Turn :=
  if 0 < arbiter.handoffRemaining ∨ 0 < arbiter.imageJobs then
    arbiter.idleBusy force deadline
  else (arbiter, some (.idleWork force deadline))

/-- `restore_llm_when_idle` from the configs of `_hal0_image_work` on. -/
def idleOnWork (arbiter : GpuArbiter) (force : Bool) (deadline : Nat)
    (reply : Reply) : Turn :=
  match reply.configs with
  | none => (arbiter, none)
  | some configs =>
    if arbiter.hal0ImageWork configs then arbiter.idleBusy force deadline
    else (arbiter, some (.idleQueue force deadline))

/-- `restore_llm_when_idle` from its queue read on. -/
def idleOnQueue (arbiter : GpuArbiter) (force : Bool) (deadline : Nat)
    (queue : QueueRead) : Turn :=
  let idle : Turn :=
    if force then (arbiter, some (.restoreLock true))
    else (arbiter, some (.decisionLock (.whenIdle deadline)))
  match queue with
  | .unknown => arbiter.idleBusy force deadline
  | .counts running pending =>
    if 0 < running + pending then arbiter.idleBusy force deadline else idle
  | .refused => idle

/-- `restore_llm_when_idle` up to its first await. -/
def restoreLlmWhenIdle (arbiter : GpuArbiter) (force : Bool)
    (maxWait : Nat) : Turn :=
  if arbiter.state.mode ≠ .img then (arbiter, none)
  else if arbiter.state.pinned && !force then (arbiter, none)
  else arbiter.idleCheck force (arbiter.now + maxWait)

/-- What the callers of `_restore_decision` do when it did not restore. -/
def refuse (arbiter : GpuArbiter) (call : RestoreCall) (refused : Refused) :
    Turn :=
  match call with
  | .restoreLlm _ | .tick => (arbiter, none)
  | .demand task =>
    if refused = .busy then
      arbiter.restoreOnDemand task (arbiter.now + demandRecheck)
    else (arbiter.endDemand task, none)
  | .whenIdle deadline =>
    if refused = .notImageMode ∨ refused = .pinned then (arbiter, none)
    else arbiter.idleBusy false deadline

/-- `_restore_decision` from the lock to its first await. -/
def restoreDecision (arbiter : GpuArbiter) (call : RestoreCall) : Turn :=
  if arbiter.state.mode ≠ .img then arbiter.refuse call .notImageMode
  else if arbiter.state.pinned then arbiter.refuse call .pinned
  else if 0 < arbiter.handoffRemaining then arbiter.refuse call .busy
  else if call = .tick ∧ arbiter.gracePassed = false then
    arbiter.refuse call .grace
  else if 0 < arbiter.imageJobs then arbiter.refuse call .busy
  else (arbiter, some (.decisionWork call))

/-- `_restore_decision` from the configs of `_hal0_image_work` on. -/
def decideOnWork (arbiter : GpuArbiter) (call : RestoreCall)
    (reply : Reply) : Turn :=
  match reply.configs with
  | none => arbiter.endRestore call
  | some configs =>
    if arbiter.hal0ImageWork configs then arbiter.refuse call .busy
    else (arbiter, some (.decisionQueue call))

/-- `_restore_decision` from its queue read on. -/
def decideOnQueue (arbiter : GpuArbiter) (call : RestoreCall)
    (queue : QueueRead) : Turn :=
  let noisy := { arbiter with quietSince := some arbiter.now }
  let idle : Turn :=
    if 0 < arbiter.imageJobs then arbiter.refuse call .busy
    else if arbiter.state.pinned then arbiter.refuse call .pinned
    else arbiter.restoreLlmLocked call
  match queue with
  | .unknown => noisy.refuse call .unreadable
  | .counts running pending =>
    if 0 < running + pending then noisy.refuse call .busy else idle
  | .refused => idle

/-- `_restore_tick`, up to the lock. -/
def restoreTick (arbiter : GpuArbiter) : Turn :=
  if arbiter.state.mode ≠ .img ∨ arbiter.state.pinned = true ∨
      0 < arbiter.imageJobs then (arbiter, none)
  else if arbiter.quietSince = none then
    ({ arbiter with quietSince := some arbiter.now }, none)
  else if arbiter.gracePassed then (arbiter, some (.decisionLock .tick))
  else (arbiter, none)

/-! ## Making room for an LLM request -/

/-- `asyncio.ensure_future(self._restore_on_demand())`. -/
def createDemand (arbiter : GpuArbiter) : GpuArbiter × DemandId :=
  ({ arbiter with
      demandRestore := some arbiter.nextDemand
      demandCreated := arbiter.nextDemand :: arbiter.demandCreated
      nextDemand := arbiter.nextDemand + 1 },
    arbiter.nextDemand)

/-- Join the demand task in place, or create one. -/
def joinDemand (arbiter : GpuArbiter) : GpuArbiter × DemandId :=
  match arbiter.demandRestore with
  | some task =>
    if arbiter.demandDone.contains task then arbiter.createDemand
    else (arbiter, task)
  | none => arbiter.createDemand

/-- `make_room_for_llm` up to its wait. -/
def makeRoomForLlm (arbiter : GpuArbiter) (request : RequestId)
    (slot : String) (maxWait : Nat) (toml : Option SlotConfig) : Turn :=
  if arbiter.state.mode ≠ .img ∨ arbiter.state.pinned = true then
    (arbiter, none)
  else
    let (looked, group) := arbiter.slotGroup slot toml
    if group ≠ some .llm then (looked, none)
    else
      let (joined, task) := looked.joinDemand
      ({ joined with demandWaiters := task :: joined.demandWaiters },
        some (.waiting request task (joined.now + maxWait)))

/-- The wake-up of `make_room_for_llm`, with the lease it takes. -/
def wakeWaiter (arbiter : GpuArbiter) (request : RequestId)
    (task : DemandId) : GpuArbiter :=
  let left := arbiter.leaveDemandWait task
  if left.state.mode = .llm then left.grantDemandLease request else left

/-! ## The program -/

/-- Run a task from where it awaits; `none` if what it awaits is not over. -/
def resume (arbiter : GpuArbiter) : Pc → Reply → Option Turn
  | .ensureLock call, reply => some (arbiter.ensureImgLocked call reply)
  | .letServed call deadline, _ =>
    some (arbiter.letServedRequestsDispatch call deadline)
  | .switchConfigs call _, reply => some (arbiter.switchToImg call reply)
  | .drain call saved img deadline, reply =>
    some (arbiter.drain call saved img deadline reply)
  | .awaitLoads call branch slots saved img deadline, reply =>
    some (arbiter.awaitLoads call branch slots saved img deadline reply)
  | .unload call branch slot rest saved img, reply =>
    some (arbiter.unloadReturned call branch slot rest saved img reply)
  | .finishConfigs call loaded saved, reply =>
    some (arbiter.finishUnloadsFrom call loaded saved reply)
  | .reviveConfigs call, reply => some (arbiter.reviveImg call reply)
  | .loadImg call img saved, reply =>
    some (arbiter.loadImgReturned call img saved reply)
  | .imgReady call img saved deadline, reply =>
    some (arbiter.pollImg call img saved deadline reply)
  | .rollbackUnload call img slots, reply =>
    some ((arbiter.setSlot img reply.status).rollbackLoads call reply slots)
  | .rollbackLoad call slot rest, reply =>
    some ((arbiter.setSlot slot reply.status).rollbackLoads call reply rest)
  | .rendering job _, _ => some (arbiter.closeJob job, none)
  | .restoreLock force, _ => some (arbiter.restoreLlm force)
  | .restoreWork, reply => some (arbiter.restoreUnlessWork reply)
  | .decisionLock call, _ => some (arbiter.restoreDecision call)
  | .decisionWork call, reply => some (arbiter.decideOnWork call reply)
  | .decisionQueue call, reply => some (arbiter.decideOnQueue call reply.queue)
  | .restoreConfigs call, reply => some (arbiter.freeComfyui call reply)
  | .restoreFree call saved, reply =>
    some (arbiter.restoreLoads call reply saved)
  | .restoreLoad call slot rest, reply =>
    some ((arbiter.setSlot slot reply.status).restoreLoads call reply rest)
  | .idleStart force maxWait, _ =>
    some (arbiter.restoreLlmWhenIdle force maxWait)
  | .idleWork force deadline, reply =>
    some (arbiter.idleOnWork force deadline reply)
  | .idleQueue force deadline, reply =>
    some (arbiter.idleOnQueue force deadline reply.queue)
  | .idleSleep force deadline, _ => some (arbiter.idleCheck force deadline)
  | .tick, _ => some arbiter.restoreTick
  | .demandLoop task recheckAt, _ =>
    some (arbiter.restoreOnDemand task recheckAt)
  | .holdLock, _ => some (arbiter.holdForPrompt, none)
  | .makeRoom request slot maxWait, reply =>
    some (arbiter.makeRoomForLlm request slot maxWait reply.toml)
  | .waiting request task deadline, _ =>
    if arbiter.demandDone.contains task ∨ deadline ≤ arbiter.now then
      some (arbiter.wakeWaiter request task, none)
    else none

/-- The calls the arbiter receives; a demand task starts once created. -/
def start (arbiter : GpuArbiter) : Pc → Option GpuArbiter
  | .ensureLock ⟨_, none⟩ => some arbiter
  | .ensureLock ⟨_, some job⟩ =>
    if job = arbiter.nextJob then some arbiter.openJob else none
  | .restoreLock _ | .idleStart _ _ | .tick | .holdLock | .makeRoom _ _ _ =>
    some arbiter
  | .demandLoop task 0 =>
    if task ∈ arbiter.demandCreated then
      some { arbiter with
        demandCreated := arbiter.demandCreated.erase task }
    else none
  | _ => none

end GpuArbiter

namespace Pc

/-- Inside the switch lock. -/
def holds : Pc → Bool
  | .letServed _ _ | .switchConfigs _ _ | .drain _ _ _ _
  | .awaitLoads _ _ _ _ _ _ | .unload _ _ _ _ _ _ | .finishConfigs _ _ _
  | .reviveConfigs _ | .loadImg _ _ _ | .imgReady _ _ _ _
  | .rollbackUnload _ _ _ | .rollbackLoad _ _ _ | .restoreWork
  | .decisionWork _ | .decisionQueue _ | .restoreConfigs _
  | .restoreFree _ _ | .restoreLoad _ _ _ => true
  | _ => false

/-- The task waits for the lock. -/
def acquires : Pc → Bool
  | .ensureLock _ | .restoreLock _ | .decisionLock _ | .holdLock => true
  | _ => false

/-- Awaits `iter_configs`. -/
def readsConfigs : Pc → Bool
  | .switchConfigs _ _ | .finishConfigs _ _ _ | .reviveConfigs _
  | .restoreWork | .decisionWork _ | .restoreConfigs _ | .idleWork _ _ =>
    true
  | _ => false

/-- The call of `ensure_img` a counter is in. -/
def ensureCall : Pc → Option EnsureCall
  | .ensureLock call | .letServed call _ | .switchConfigs call _
  | .drain call _ _ _ | .awaitLoads call _ _ _ _ _ | .unload call _ _ _ _ _
  | .finishConfigs call _ _ | .reviveConfigs call | .loadImg call _ _
  | .imgReady call _ _ _ | .rollbackUnload call _ _
  | .rollbackLoad call _ _ => some call
  | _ => none

/-- The restore a counter is in the locked body of. -/
def restoreCall : Pc → Option RestoreCall
  | .restoreConfigs call | .restoreFree call _ | .restoreLoad call _ _ =>
    some call
  | _ => none

/-- The demand task a counter belongs to. -/
def demandTask : Pc → Option DemandId
  | .demandLoop task _ => some task
  | .decisionLock (.demand task) | .decisionWork (.demand task)
  | .decisionQueue (.demand task) | .restoreConfigs (.demand task)
  | .restoreFree (.demand task) _ | .restoreLoad (.demand task) _ _ =>
    some task
  | _ => none

/-- The `image_job` a counter is inside of. -/
def job : Pc → Option JobId
  | .rendering job _ => some job
  | pc => pc.ensureCall.bind EnsureCall.job

end Pc

/-- What happens beside the tasks. -/
inductive Event where
  | elapse (duration : Nat)
  | slotChanges (slot : String) (status : SlotStatus)
  | setPin (pinned written : Bool)
  | dispatch (request : RequestId) (slot : String) (toml : Option SlotConfig)
  | releaseDemandLease (request : RequestId)
deriving DecidableEq, Repr

namespace GpuArbiter

/--
A task is cancelled: the `finally` blocks of `ensure_img`, `image_job` and
`make_room_for_llm` run.  A demand task is shielded from the requests which
wait on it.
-/
def abandon (arbiter : GpuArbiter) (pc : Pc) : Option GpuArbiter :=
  if pc.demandTask.isSome then none
  else
    let left :=
      if pc.holds && pc.ensureCall.isSome then arbiter.leaveSwitch
      else arbiter
    match pc, pc.job with
    | .waiting _ task _, _ => some (left.leaveDemandWait task)
    | _, some job => some (left.closeJob job)
    | _, none => some left

/-- What happens beside the tasks. -/
def occur (arbiter : GpuArbiter) : Event → GpuArbiter
  | .elapse duration => { arbiter with now := arbiter.now + duration }
  | .slotChanges slot status => arbiter.setSlot slot status
  | .setPin pinned written => arbiter.setPin pinned written
  | .dispatch request slot toml => arbiter.dispatch request slot toml
  | .releaseDemandLease request => arbiter.releaseDemandLease request

/-- The process ends and a new one reads the state file. -/
def restart (arbiter : GpuArbiter) : GpuArbiter :=
  { boot arbiter.restoreGrace arbiter.file arbiter.slots with
    now := arbiter.now
    nextDemand := arbiter.nextDemand
    nextLease := arbiter.nextLease
    nextJob := arbiter.nextJob
    unloaded := arbiter.unloaded }

end GpuArbiter

end Hal0.Slots.Arbiter
