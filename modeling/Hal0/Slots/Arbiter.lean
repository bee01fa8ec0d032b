import Hal0.Core.Monitor
import Hal0.Slots.State

/-!
# The GPU arbiter

`GpuArbiter` flips one GPU between the LLM slots and the image slot.  Every
switch and every restore runs under one lock, and each of them awaits: the
slot manager, ComfyUI, a poll interval.  This module gives the arbiter's
state, every function that awaits as a program counter with the code that
runs from it to the next await, and the whole as a `Monitor.Program`.

Times are milliseconds of the monotonic clock.  A task which sleeps may wake
at any time; the deadlines are those of the source.  What the outside decides
at an await is a field of `Reply`: the configs read, whether a load, an unload
or a state write raised, the state a slot was left in, ComfyUI's queue.
-/

namespace Hal0.Slots.Arbiter

open Hal0.Monitor

abbrev JobId := Nat
abbrev DemandId := Nat
abbrev RequestId := Nat
abbrev LeaseToken := Nat

/-! ## Slot groups -/

/-- Which group has the GPU. -/
inductive GpuMode where
  | llm
  | img
deriving DecidableEq, Repr

/-- The value of the enumeration. -/
def GpuMode.value : GpuMode → String
  | .llm => "llm"
  | .img => "img"

/-- The group of a slot. -/
inductive Group where
  | llm
  | img
deriving DecidableEq, Repr

/-- The fields of a slot config the arbiter reads; a missing one is empty. -/
structure SlotConfig where
  name : String
  device : String
  runtime : String
  profile : String
  provider : String
  type : String
deriving DecidableEq, Repr

/-- `str(value or default)`. -/
def orDefault (value default : String) : String :=
  if value = "" then default else value

/-- The characters `str.strip` removes. -/
def isSpace (char : Char) : Bool :=
  let code := char.toNat
  (0x09 ≤ code && code ≤ 0x0d) || (0x1c ≤ code && code ≤ 0x20) ||
    code = 0x85 || code = 0xa0 || code = 0x1680 ||
    (0x2000 ≤ code && code ≤ 0x200a) || code = 0x2028 || code = 0x2029 ||
    code = 0x202f || code = 0x205f || code = 0x3000

/-- Derive the exclusive-GPU group of a slot config. -/
def gpuExclusiveGroup (config : SlotConfig) : Option Group :=
  let device := orDefault config.device "gpu-rocm"
  let runtime := orDefault config.runtime "container"
  let isContainer := runtime = "container" ||
    config.profile.toList.any fun char => !isSpace char
  if !(device = "gpu-rocm" || device = "gpu-vulkan") || !isContainer then
    none
  else if config.provider = "comfyui" || config.profile = "comfyui" ||
      config.type = "image" then
    some .img
  else
    some .llm

/-- The first config of the image group. -/
def imgConfig (configs : List SlotConfig) : Option SlotConfig :=
  configs.find? fun config => gpuExclusiveGroup config = some .img

/-- Set a key of a dict: in place, or behind the others. -/
def dictSet {Value : Type} (entries : List (String × Value)) (key : String)
    (value : Value) : List (String × Value) :=
  if entries.any fun entry => entry.1 = key then
    entries.map fun entry => if entry.1 = key then (key, value) else entry
  else
    entries ++ [(key, value)]

/-- What the arbiter sees of a slot. -/
structure SlotStatus where
  state : SlotState
  busy : Bool
  inFlight : Nat
deriving DecidableEq, Repr

/-- `_TERMINAL`: states which end the wait for the image engine. -/
def isTerminal : SlotState → Bool
  | .error | .offline => true
  | _ => false

def SlotStatus.onGpu (status : SlotStatus) : Bool :=
  status.state.isDispatchable || status.state.isInFlight

/-! ## The persisted state -/

/-- `_state`, with the fields of `_DEFAULT_STATE`. -/
structure ArbiterState where
  mode : GpuMode
  pinned : Bool
  savedLlmSlots : List String
deriving DecidableEq, Repr

/-- The state without a file. -/
def ArbiterState.default : ArbiterState := ⟨.llm, false, []⟩

/-- What `gpu_arbiter.json` holds; a field may be missing. -/
inductive StateFile where
  | missing
  | unreadable
  | record (mode : Option String) (pinned : Option Bool)
      (savedLlmSlots : Option (List String))
deriving DecidableEq, Repr

/-- Read the state file; tolerate missing and corrupt ones. -/
def loadState : StateFile → ArbiterState
  | .missing | .unreadable => .default
  | .record mode pinned savedLlmSlots =>
    { mode := if mode = some GpuMode.img.value then .img else .llm
      pinned := pinned.getD ArbiterState.default.pinned
      savedLlmSlots :=
        savedLlmSlots.getD ArbiterState.default.savedLlmSlots }

/-- The file `_persist` writes. -/
def ArbiterState.toFile (state : ArbiterState) : StateFile :=
  .record (some state.mode.value) (some state.pinned)
    (some state.savedLlmSlots)

@[simp]
theorem loadState_toFile (state : ArbiterState) :
    loadState state.toFile = state := by
  obtain ⟨mode, pinned, saved⟩ := state
  cases mode <;> rfl

/-! ## Program counters -/

/--
A call of `ensure_img`.  An image request makes it inside its `image_job`; the
editor gate and the dashboard make it outside of one.
-/
structure EnsureCall where
  pin : Bool
  job : Option JobId
deriving DecidableEq, Repr

/-- How `ensure_img` ended; `NotFound` is the one error its route ignores. -/
inductive EnsureResult where
  | returned
  | imgSlotMissing
  | raised
deriving DecidableEq, Repr

/-- Whether `ensure_img` flips the mode or finds image mode in place. -/
inductive Branch where
  | flip
  | already
deriving DecidableEq, Repr

/-- Who runs a restore. -/
inductive RestoreCall where
  | restoreLlm (force : Bool)
  | tick
  | demand (task : DemandId)
  | whenIdle (deadline : Nat)
deriving DecidableEq, Repr

/-- `restore_llm(force=True)`, which `restore_llm_when_idle` also ends in. -/
def RestoreCall.forced : RestoreCall → Bool
  | .restoreLlm force => force
  | _ => false

/-- Outcomes of `_restore_decision` other than `"restored"`. -/
inductive Refused where
  | notImageMode
  | pinned
  | grace
  | busy
  | unreadable
deriving DecidableEq, Repr

/-- Where a task awaits. -/
inductive Pc where
  /-- `ensure_img` waits for the switch lock. -/
  | ensureLock (call : EnsureCall)
  /-- The sleep in `_let_served_requests_dispatch`. -/
  | letServed (call : EnsureCall) (deadline : Nat)
  /-- `iter_configs` before the flip; did the wait before it time out? -/
  | switchConfigs (call : EnsureCall) (timedOut : Bool)
  /-- The sleep of the drain. -/
  | drain (call : EnsureCall) (saved : List String) (img : String)
      (deadline : Nat)
  /-- The sleep in `_await_loads`. -/
  | awaitLoads (call : EnsureCall) (branch : Branch)
      (slots saved : List String) (img : String) (deadline : Nat)
  /-- `unload(slot)` in `_unload_for_img`. -/
  | unload (call : EnsureCall) (branch : Branch) (slot : String)
      (rest saved : List String) (img : String)
  /-- `iter_configs` in `_finish_unloads`. -/
  | finishConfigs (call : EnsureCall) (loaded saved : List String)
  /-- `iter_configs` in `_revive_img`. -/
  | reviveConfigs (call : EnsureCall)
  /-- `load(img_name)` in `_cold_start_img`. -/
  | loadImg (call : EnsureCall) (img : String) (saved : List String)
  /-- The sleep of the readiness poll. -/
  | imgReady (call : EnsureCall) (img : String) (saved : List String)
      (deadline : Nat)
  /-- `unload(img_name)` in `_rollback_to_llm`. -/
  | rollbackUnload (call : EnsureCall) (img : String) (slots : List String)
  /-- `load(slot)` in `_rollback_to_llm`. -/
  | rollbackLoad (call : EnsureCall) (slot : String) (rest : List String)
  /-- An image request after `ensure_img`, inside its `image_job`. -/
  | rendering (job : JobId) (switched : Bool)
  /-- `restore_llm` waits for the switch lock. -/
  | restoreLock (force : Bool)
  /-- `iter_configs` in the `_hal0_image_work` of `restore_llm`. -/
  | restoreWork
  /-- `_restore_decision` waits for the switch lock. -/
  | decisionLock (call : RestoreCall)
  /-- `iter_configs` in the `_hal0_image_work` of `_restore_decision`. -/
  | decisionWork (call : RestoreCall)
  /-- `_comfyui_queue_state` in `_restore_decision`. -/
  | decisionQueue (call : RestoreCall)
  /-- `iter_configs` in `_restore_llm_locked`. -/
  | restoreConfigs (call : RestoreCall)
  /-- `_comfyui_free` in `_restore_llm_locked`. -/
  | restoreFree (call : RestoreCall) (saved : List String)
  /-- `load(slot)` in `_restore_llm_locked`. -/
  | restoreLoad (call : RestoreCall) (slot : String) (rest : List String)
  /-- `restore_llm_when_idle` is called. -/
  | idleStart (force : Bool) (maxWait : Nat)
  /-- `iter_configs` in the `_hal0_image_work` of `restore_llm_when_idle`. -/
  | idleWork (force : Bool) (deadline : Nat)
  /-- `_comfyui_queue_state` in `restore_llm_when_idle`. -/
  | idleQueue (force : Bool) (deadline : Nat)
  /-- The sleep of `restore_llm_when_idle`. -/
  | idleSleep (force : Bool) (deadline : Nat)
  /-- The restore loop calls `_restore_tick`. -/
  | tick
  /-- `_restore_on_demand` is at the head of its loop. -/
  | demandLoop (task : DemandId) (recheckAt : Nat)
  /-- `hold_for_prompt` waits for the switch lock. -/
  | holdLock
  /-- `make_room_for_llm` is called. -/
  | makeRoom (request : RequestId) (slot : String) (maxWait : Nat)
  /-- `make_room_for_llm` waits on a demand task. -/
  | waiting (request : RequestId) (task : DemandId) (deadline : Nat)
deriving DecidableEq, Repr

/-- `GET /queue`: refused, answered with something else, or the counts. -/
inductive QueueRead where
  | refused
  | unknown
  | counts (running pending : Nat)
deriving DecidableEq, Repr

/-- What the outside answers at an await; each counter reads its fields. -/
structure Reply where
  configs : Option (List SlotConfig) := none
  crashLooping : Bool := false
  written : Bool := true
  raised : Bool := false
  status : SlotStatus := ⟨.offline, false, 0⟩
  queue : QueueRead := .refused
  toml : Option SlotConfig := none
deriving DecidableEq, Repr

/-! ## The arbiter -/

def drainTimeout : Nat := 120000
def loadWait : Nat := 120000
def imgReadyTimeout : Nat := 120000
def gateHandoff : Nat := 3000
def demandLease : Nat := 5000
def demandRecheck : Nat := 1000
def retryAfterFloor : Nat := 15

/--
`GpuArbiter`, with the slot manager it drives and the clock it reads.

`demandWaiters` has one entry for each request waiting on a demand task; the
source keeps their number by task.  `openJobs` and `unloaded` are not in the
source: they record the image jobs which are open, and the LLM slots the
arbiter has unloaded and not tried to load again.
-/
structure GpuArbiter where
  now : Nat
  restoreGrace : Nat
  state : ArbiterState
  file : StateFile
  slots : String → SlotStatus
  groupCache : List (String × Option Group)
  imageJobs : Nat
  quietSince : Option Nat
  enteringImg : Bool
  handoffUntil : Option Nat
  demandRestore : Option DemandId
  demandCreated : List DemandId
  demandDone : List DemandId
  nextDemand : DemandId
  demandWaiters : List DemandId
  demandLeases : List (LeaseToken × Nat)
  leaseOf : RequestId → Option LeaseToken
  nextLease : LeaseToken
  openJobs : List JobId
  nextJob : JobId
  unloaded : List String

abbrev Turn := GpuArbiter × Option Pc

/-- LLM dispatch refused in image mode, image dispatch in LLM mode. -/
inductive Refusal where
  | gpuImageMode (slot : String) (retryAfter : Nat)
  | gpuInferenceMode (slot : String)
deriving DecidableEq, Repr

namespace GpuArbiter

/-- A new process on the state file it finds. -/
def boot (restoreGrace : Nat) (file : StateFile)
    (slots : String → SlotStatus) : GpuArbiter where
  now := 0
  restoreGrace := restoreGrace
  state := loadState file
  file := file
  slots := slots
  groupCache := []
  imageJobs := 0
  quietSince := none
  enteringImg := false
  handoffUntil := none
  demandRestore := none
  demandCreated := []
  demandDone := []
  nextDemand := 0
  demandWaiters := []
  demandLeases := []
  leaseOf := fun _ => none
  nextLease := 0
  openJobs := []
  nextJob := 0
  unloaded := []

/-- Set `_state` and `_persist` it; a write which raises leaves the file. -/
def persist (arbiter : GpuArbiter) (state : ArbiterState) (written : Bool) :
    GpuArbiter :=
  { arbiter with
    state := state
    file := if written then state.toFile else arbiter.file }

/-- The status of one slot changes. -/
def setSlot (arbiter : GpuArbiter) (slot : String) (status : SlotStatus) :
    GpuArbiter :=
  { arbiter with slots := Function.update arbiter.slots slot status }

def onGpu (arbiter : GpuArbiter) (slot : String) : Bool :=
  (arbiter.slots slot).onGpu

/-- The groups of the slots are read again. -/
def refreshGroupCache (arbiter : GpuArbiter) (configs : List SlotConfig) :
    GpuArbiter :=
  { arbiter with
    groupCache := configs.foldl
      (fun cache config =>
        dictSet cache config.name (gpuExclusiveGroup config)) [] }

/-- The llm-group slots on the GPU, in config order. -/
def llmSlotsToUnload (arbiter : GpuArbiter) : List String :=
  (arbiter.groupCache.filter fun entry =>
    entry.2 = some .llm && arbiter.onGpu entry.1).map Prod.fst

/-- The saved slots an aborted switch reloads: those it took off the GPU. -/
def reloadAfterAbort (arbiter : GpuArbiter) (saved skip : List String) :
    List String :=
  saved.filter fun slot => !skip.contains slot && !arbiter.onGpu slot

/-- The group of a slot: from the cache, its TOML, or the saved set. -/
def slotGroup (arbiter : GpuArbiter) (slot : String)
    (toml : Option SlotConfig) : GpuArbiter × Option Group :=
  match arbiter.groupCache.lookup slot with
  | some group => (arbiter, group)
  | none =>
    match toml with
    | some config =>
      ({ arbiter with
          groupCache := dictSet arbiter.groupCache slot
            (gpuExclusiveGroup config) },
        gpuExclusiveGroup config)
    | none =>
      (arbiter,
        if slot ∈ arbiter.state.savedLlmSlots then some .llm else none)

/-- Raise when the slot can't dispatch in the current GPU mode. -/
def guardDispatch (arbiter : GpuArbiter) (slot : String)
    (toml : Option SlotConfig) : GpuArbiter × Except Refusal Unit :=
  let (looked, group) := arbiter.slotGroup slot toml
  if arbiter.state.mode = .img ∧ group = some .llm then
    (looked, .error (.gpuImageMode slot retryAfterFloor))
  else if arbiter.state.mode = .llm ∧ group = some .img then
    (looked, .error (.gpuInferenceMode slot))
  else
    (looked, .ok ())

/-! ## Image jobs, the hand-off and the pin -/

/-- Enter `image_job`. -/
def openJob (arbiter : GpuArbiter) : GpuArbiter :=
  { arbiter with
    imageJobs := arbiter.imageJobs + 1
    quietSince := none
    openJobs := arbiter.nextJob :: arbiter.openJobs
    nextJob := arbiter.nextJob + 1 }

/-- Leave `image_job`. -/
def closeJob (arbiter : GpuArbiter) (job : JobId) : GpuArbiter :=
  { arbiter with
    imageJobs := arbiter.imageJobs - 1
    quietSince :=
      if arbiter.imageJobs - 1 = 0 then some arbiter.now
      else arbiter.quietSince
    openJobs := arbiter.openJobs.erase job }

/-- `_hal0_image_work` after its await. -/
def hal0ImageWork (arbiter : GpuArbiter) (configs : List SlotConfig) : Bool :=
  ((imgConfig configs).any fun config =>
      0 < (arbiter.slots config.name).inFlight) ||
    0 < arbiter.imageJobs

/-- How long the gate stays with image mode. -/
def handoffRemaining (arbiter : GpuArbiter) : Nat :=
  match arbiter.handoffUntil with
  | none => 0
  | some ends => ends - arbiter.now

/-- It has been quiet for the whole grace. -/
def gracePassed (arbiter : GpuArbiter) : Bool :=
  match arbiter.quietSince with
  | none => false
  | some since => arbiter.restoreGrace ≤ arbiter.now - since

/-- `hold_for_prompt` once it has the lock. -/
def holdForPrompt (arbiter : GpuArbiter) : GpuArbiter :=
  if arbiter.state.mode = .img then
    let ends := arbiter.now + gateHandoff
    { arbiter with
      handoffUntil :=
        match arbiter.handoffUntil with
        | none => some ends
        | some held => if held < ends then some ends else some held }
  else arbiter

/-- The pin is saved, where it can be. -/
def setPin (arbiter : GpuArbiter) (pinned written : Bool) : GpuArbiter :=
  let saved := arbiter.persist { arbiter.state with pinned := pinned } written
  if written && !pinned then { saved with quietSince := some arbiter.now }
  else saved

/-! ## Demand leases -/

/-- Leases that ran out are dropped. -/
def pruneDemandLeases (arbiter : GpuArbiter) : GpuArbiter :=
  { arbiter with
    demandLeases := arbiter.demandLeases.filter fun lease =>
      arbiter.now < lease.2 }

/-- Release the lease of a request, if it holds one. -/
def releaseDemandLease (arbiter : GpuArbiter) (request : RequestId) :
    GpuArbiter :=
  match arbiter.leaseOf request with
  | none => arbiter
  | some token =>
    { arbiter with
      demandLeases := arbiter.demandLeases.filter fun lease =>
        lease.1 ≠ token
      leaseOf := Function.update arbiter.leaseOf request none }

/-- A demand gets a lease. -/
def grantDemandLease (arbiter : GpuArbiter) (request : RequestId) :
    GpuArbiter :=
  let pruned := (arbiter.releaseDemandLease request).pruneDemandLeases
  { pruned with
    demandLeases :=
      pruned.demandLeases ++ [(pruned.nextLease, pruned.now + demandLease)]
    leaseOf := Function.update pruned.leaseOf request (some pruned.nextLease)
    nextLease := pruned.nextLease + 1 }

/-- `_served_requests_pending`, once the expired leases are pruned. -/
def servedRequestsPending (arbiter : GpuArbiter) : Bool :=
  !arbiter.pruneDemandLeases.demandLeases.isEmpty ||
    arbiter.demandWaiters.any fun task => arbiter.demandDone.contains task

/-- A demand waits no longer. -/
def leaveDemandWait (arbiter : GpuArbiter) (task : DemandId) : GpuArbiter :=
  { arbiter with demandWaiters := arbiter.demandWaiters.erase task }

/--
The dispatcher's synchronous step: the image-mode guard, the release of the
demand lease, and the dispatch ticket if the guard passed.
-/
def dispatch (arbiter : GpuArbiter) (request : RequestId) (slot : String)
    (toml : Option SlotConfig) : GpuArbiter :=
  let (looked, answer) := arbiter.guardDispatch slot toml
  let released := looked.releaseDemandLease request
  match answer with
  | .error _ => released
  | .ok _ =>
    let status := released.slots slot
    released.setSlot slot { status with inFlight := status.inFlight + 1 }

end GpuArbiter

end Hal0.Slots.Arbiter
