import Hal0.Slots.ArbiterProgram
import Hal0.Slots.InFlight
import Mathlib.Data.List.Nodup

/-!
# The image switch and the requests in flight

`Dispatcher.forward` asks the arbiter's guard and takes its dispatch ticket in
one synchronous step; `ensure_img` persists image mode and then drains.  This
module runs the arbiter's tasks and the dispatched requests together: what the
arbiter reads of a slot's requests is the `in_flight_count` of the slot
manager, and a request enters the manager's books when the guard lets it pass.

The slot configs on disk do not change in a run; every read of them answers
the same.  `expired` is not in the source: it records that the drain of the
present `ensure_img` call ran into its deadline.
-/

namespace Hal0.Slots.ImageDrain

open List
open Hal0.Transition Hal0.Monitor
open Hal0.Slots.Arbiter Hal0.Handles

/-! ## The slot configs -/

/-- The configs, with distinct names. -/
structure SlotsDir where
  configs : List SlotConfig
  distinct : (configs.map SlotConfig.name).Nodup

namespace SlotsDir

def config (dir : SlotsDir) (slot : String) : Option SlotConfig :=
  dir.configs.find? fun config => config.name = slot

def group (dir : SlotsDir) (slot : String) : Option Group :=
  (dir.config slot).bind gpuExclusiveGroup

theorem config_of_mem (dir : SlotsDir) {config : SlotConfig}
    (present : config ∈ dir.configs) :
    dir.config config.name = some config := by
  obtain ⟨found, same⟩ : ∃ other, dir.config config.name = some other := by
    rw [← Option.isSome_iff_exists, SlotsDir.config, find?_isSome]
    exact ⟨config, present, by simp⟩
  have listed := mem_of_find?_eq_some same
  have named : found.name = config.name := by
    simpa using find?_some same
  rw [same, inj_on_of_nodup_map dir.distinct listed present named]

/-- What an await answers when every config read answers `dir`. -/
def answers (dir : SlotsDir) (pc : Pc) (reply : Reply) : Reply :=
  { reply with
    configs := reply.configs.map fun _ => dir.configs
    toml :=
      match pc with
      | .makeRoom _ slot _ => dir.config slot
      | _ => none }

end SlotsDir

/-! ## The arbiter beside the requests -/

/-- The arbiter and the requests together. -/
structure Gpu where
  arbiter : GpuArbiter
  manager : InFlight.Manager
  expired : Bool

namespace Gpu

/-- The arbiter as it sees the slots: their requests are the manager's. -/
def view (gpu : Gpu) : GpuArbiter :=
  { gpu.arbiter with
    slots := fun slot =>
      { gpu.arbiter.slots slot with
        inFlight := gpu.manager.inFlightCount slot } }

/-- Whether the drain of the present call has run into its deadline. -/
def expires (gpu : Gpu) : Pc → Bool
  | .ensureLock _ => false
  | .drain _ _ _ deadline => gpu.expired || deadline ≤ gpu.arbiter.now
  | _ => gpu.expired

end Gpu

/-- What happens beside the arbiter's tasks. -/
inductive Event where
  | elapse (duration : Nat)
  | slotChanges (slot : String) (status : SlotStatus)
  | setPin (pinned written : Bool)
  | releaseDemandLease (request : RequestId)
  | forward (request : RequestId) (task : InFlight.TaskId) (slot : String)
      (streams : Bool)
  | request (action : InFlight.Action)
deriving DecidableEq

def isRequestMove : InFlight.Action → Bool
  | .dispatch _ _ _ | .rename _ _ => false
  | _ => true

namespace Gpu

def withArbiter (gpu : Gpu) (arbiter : GpuArbiter) : Gpu :=
  { gpu with arbiter := arbiter }

/--
The synchronous step of `forward`: the guard, the release of the demand lease
and, if the guard passed, the ticket.
-/
def forward (dir : SlotsDir) (gpu : Gpu) (request : RequestId)
    (task : InFlight.TaskId) (slot : String) (streams : Bool) :
    Option Gpu :=
  let toml := dir.config slot
  let asked := gpu.withArbiter (gpu.arbiter.dispatch request slot toml)
  match (gpu.arbiter.guardDispatch slot toml).2 with
  | .error _ => some asked
  | .ok _ =>
    (gpu.manager.step (.dispatch task slot streams)).map fun manager =>
      { asked with manager := manager }

/-- What happens beside the tasks. -/
def occur (dir : SlotsDir) (gpu : Gpu) : Event → Option Gpu
  | .elapse duration =>
    some (gpu.withArbiter (gpu.arbiter.occur (.elapse duration)))
  | .slotChanges slot status =>
    some (gpu.withArbiter (gpu.arbiter.occur (.slotChanges slot status)))
  | .setPin pinned written =>
    some (gpu.withArbiter (gpu.arbiter.occur (.setPin pinned written)))
  | .releaseDemandLease request =>
    some (gpu.withArbiter (gpu.arbiter.occur (.releaseDemandLease request)))
  | .forward request task slot streams =>
    gpu.forward dir request task slot streams
  | .request action =>
    if isRequestMove action then
      (gpu.manager.step action).map fun manager =>
        { gpu with manager := manager }
    else none

end Gpu

/-- The arbiter's tasks, reading the manager's books. -/
def machine (suspends : Bool) (dir : SlotsDir) :
    Program Gpu Pc Reply Event where
  holds := Pc.holds
  acquires := Pc.acquires
  atomic := fun pc => !suspends && pc.readsConfigs
  start := fun gpu pc => (gpu.view.start pc).map gpu.withArbiter
  resume := fun gpu pc reply =>
    (gpu.view.resume pc (dir.answers pc reply)).map fun turn =>
      ({ gpu with arbiter := turn.1, expired := gpu.expires pc }, turn.2)
  abandon := fun gpu pc => (gpu.view.abandon pc).map gpu.withArbiter
  occur := Gpu.occur dir
  restart := fun gpu =>
    { arbiter := gpu.arbiter.restart
      manager := .boot gpu.manager.registry.identity
      expired := false }
  startsOutside := by
    intro gpu pc started begun
    obtain ⟨arbiter, begins, -⟩ := Option.map_eq_some_iff.1 begun
    exact (program suspends).startsOutside _ _ _ begins
  entersByLock := by
    intro gpu pc reply resumed next turned held
    obtain ⟨turn, turns, same⟩ := Option.map_eq_some_iff.1 turned
    obtain ⟨-, follows⟩ := Prod.mk.inj same
    have entered := (program suspends).entersByLock gpu.view pc
      (dir.answers pc reply) turn.1 next
    apply entered _ held
    rw [← follows]
    exact turns

abbrev GpuWorld := World Gpu Pc
abbrev GpuAction := Action Pc Reply Event

/-! ## What a turn does to the group cache and to the slots ahead -/

/-- The slots which a task has yet to unload from here are all `clear`. -/
def Covers (clear : String → Prop) : Pc → Prop
  | .awaitLoads _ _ slots _ _ _ => ∀ slot ∈ slots, clear slot
  | .unload _ _ slot rest _ _ => ∀ other ∈ slot :: rest, clear other
  | .finishConfigs _ loaded _ => ∀ slot ∈ loaded, clear slot
  | _ => True

/-- The group cache is as it was, and the slots ahead are `clear`. -/
structure Steady (clear : String → Prop) (arbiter : GpuArbiter)
    (turn : Turn) : Prop where
  cache : turn.1.groupCache = arbiter.groupCache
  covers : ∀ pc, turn.2 = some pc → Covers clear pc

namespace Steady

variable {clear : String → Prop} {arbiter middle : GpuArbiter}

theorem ended (cache : middle.groupCache = arbiter.groupCache) :
    Steady clear arbiter (middle, none) :=
  ⟨cache, nofun⟩

theorem waits {pc : Pc} (cache : middle.groupCache = arbiter.groupCache)
    (covers : Covers clear pc) : Steady clear arbiter (middle, some pc) :=
  ⟨cache, fun _ awaited => Option.some.inj awaited ▸ covers⟩

theorem after {turn : Turn} (steady : Steady clear middle turn)
    (cache : middle.groupCache = arbiter.groupCache) :
    Steady clear arbiter turn :=
  ⟨steady.cache.trans cache, steady.covers⟩

section

variable (call : EnsureCall)
include call

theorem endEnsure (result : EnsureResult) :
    Steady clear arbiter (arbiter.endEnsure call result) := by
  obtain ⟨pin, job⟩ := call
  cases job with
  | none => exact ended rfl
  | some job =>
    cases result with
    | returned => exact waits rfl trivial
    | imgSlotMissing => exact waits rfl trivial
    | raised => exact ended rfl

theorem rollbackLoads (reply : Reply) (slots : List String) :
    Steady clear arbiter (arbiter.rollbackLoads call reply slots) := by
  cases slots with
  | nil => exact (endEnsure call .raised).after rfl
  | cons slot rest => exact waits rfl trivial

theorem rollbackToLlm (slots : List String) (img : String) (unloadImg : Bool)
    (reply : Reply) :
    Steady clear arbiter
      (arbiter.rollbackToLlm call slots img unloadImg reply) := by
  unfold GpuArbiter.rollbackToLlm
  split_ifs
  · exact waits rfl trivial
  · exact rollbackLoads call reply slots

theorem pollImg (img : String) (saved : List String) (deadline : Nat)
    (reply : Reply) :
    Steady clear arbiter
      (arbiter.pollImg call img saved deadline reply) := by
  unfold GpuArbiter.pollImg
  dsimp only
  split_ifs
  · exact endEnsure call .returned
  · exact rollbackToLlm call saved img true reply
  · exact rollbackToLlm call saved img true reply
  · exact waits rfl trivial

theorem loadImgReturned (img : String) (saved : List String) (reply : Reply) :
    Steady clear arbiter
      (arbiter.loadImgReturned call img saved reply) := by
  unfold GpuArbiter.loadImgReturned
  dsimp only
  split_ifs
  · exact (rollbackToLlm call saved img false reply).after rfl
  · exact (pollImg call img saved _ reply).after rfl

theorem unloadForImg (branch : Branch) (slots saved : List String)
    (img : String) (clears : ∀ slot ∈ slots, clear slot) :
    Steady clear arbiter
      (arbiter.unloadForImg call branch slots saved img) := by
  cases slots with
  | cons slot rest => exact waits rfl clears
  | nil =>
    cases branch with
    | flip =>
      simp only [GpuArbiter.unloadForImg, GpuArbiter.afterUnloads]
      split_ifs
      · exact endEnsure call .returned
      · exact waits rfl trivial
    | already => exact waits rfl trivial

theorem unloadReturned (branch : Branch) (slot : String)
    (rest saved : List String) (img : String) (reply : Reply)
    (clears : ∀ other ∈ slot :: rest, clear other) :
    Steady clear arbiter
      (arbiter.unloadReturned call branch slot rest saved img reply) := by
  unfold GpuArbiter.unloadReturned
  dsimp only
  split_ifs
  · exact (rollbackToLlm call _ img false reply).after rfl
  · refine (unloadForImg call branch rest saved img ?_).after rfl
    intro other listed
    exact clears other (mem_cons_of_mem _ listed)

theorem awaitLoads (branch : Branch) (slots saved : List String) (img : String)
    (deadline : Nat) (reply : Reply) (clears : ∀ slot ∈ slots, clear slot) :
    Steady clear arbiter
      (arbiter.awaitLoads call branch slots saved img deadline reply) := by
  unfold GpuArbiter.awaitLoads
  dsimp only
  split_ifs
  · exact unloadForImg call branch slots saved img clears
  · exact rollbackToLlm call _ img false reply
  · exact waits rfl clears

theorem drain (saved : List String) (img : String) (deadline : Nat)
    (reply : Reply)
    (drained : (∀ slot ∈ saved, (arbiter.slots slot).inFlight = 0) →
      ∀ slot ∈ saved, clear slot)
    (expired : deadline ≤ arbiter.now → ∀ slot ∈ saved, clear slot) :
    Steady clear arbiter
      (arbiter.drain call saved img deadline reply) := by
  unfold GpuArbiter.drain
  split_ifs with busy
  · exact waits rfl trivial
  · apply awaitLoads call .flip saved saved img _ reply
    rw [Bool.and_eq_true, not_and_or] at busy
    rcases busy with none_ | late
    · apply drained
      intro slot listed
      by_contra some_
      apply none_
      rw [any_eq_true]
      exact ⟨slot, listed, by simpa using Nat.pos_of_ne_zero some_⟩
    · exact expired (by simpa using late)

theorem finishUnloads
    (clears : ∀ slot ∈ arbiter.state.savedLlmSlots,
      arbiter.onGpu slot = true → clear slot) :
    Steady clear arbiter (arbiter.finishUnloads call) := by
  unfold GpuArbiter.finishUnloads
  dsimp only
  split
  · exact waits rfl trivial
  · rename_i slot rest found
    apply waits rfl
    intro other listed
    rw [← found, mem_filter] at listed
    exact clears other listed.1 listed.2

theorem letServedRequestsDispatch (deadline : Nat) :
    Steady clear arbiter
      (arbiter.letServedRequestsDispatch call deadline) := by
  unfold GpuArbiter.letServedRequestsDispatch
  dsimp only
  split_ifs <;> exact waits rfl trivial

end

theorem endRestore (call : RestoreCall) :
    Steady clear arbiter (arbiter.endRestore call) := by
  cases call <;> exact ended rfl

theorem restoreLoads (call : RestoreCall) (reply : Reply)
    (slots : List String) :
    Steady clear arbiter (arbiter.restoreLoads call reply slots) := by
  cases slots with
  | cons slot rest => exact waits rfl trivial
  | nil =>
    simp only [GpuArbiter.restoreLoads]
    split_ifs <;> exact (endRestore call).after rfl

theorem restoreOnDemand (task : DemandId) (recheckAt : Nat) :
    Steady clear arbiter (arbiter.restoreOnDemand task recheckAt) := by
  unfold GpuArbiter.restoreOnDemand
  split_ifs
  · exact ended rfl
  · exact ended rfl
  · exact waits rfl trivial
  · exact waits rfl trivial

theorem idleBusy (force : Bool) (deadline : Nat) :
    Steady clear arbiter (arbiter.idleBusy force deadline) := by
  unfold GpuArbiter.idleBusy
  split_ifs
  · exact ended rfl
  · exact waits rfl trivial

theorem idleCheck (force : Bool) (deadline : Nat) :
    Steady clear arbiter (arbiter.idleCheck force deadline) := by
  unfold GpuArbiter.idleCheck
  split_ifs
  · exact idleBusy force deadline
  · exact waits rfl trivial

theorem idleOnWork (force : Bool) (deadline : Nat) (reply : Reply) :
    Steady clear arbiter (arbiter.idleOnWork force deadline reply) := by
  unfold GpuArbiter.idleOnWork
  split
  · exact ended rfl
  · split_ifs
    · exact idleBusy force deadline
    · exact waits rfl trivial

theorem idleOnQueue (force : Bool) (deadline : Nat) (queue : QueueRead) :
    Steady clear arbiter (arbiter.idleOnQueue force deadline queue) := by
  have idle : Steady clear arbiter
      (if force = true then (arbiter, some (.restoreLock true))
        else (arbiter, some (.decisionLock (.whenIdle deadline)))) := by
    split_ifs <;> exact waits rfl trivial
  cases queue with
  | refused => exact idle
  | unknown => exact idleBusy force deadline
  | counts running pending =>
    simp only [GpuArbiter.idleOnQueue]
    split_ifs at idle ⊢
    all_goals first | exact idleBusy force deadline | exact idle

theorem refuse (call : RestoreCall) (refused : Refused) :
    Steady clear arbiter (arbiter.refuse call refused) := by
  cases call with
  | restoreLlm force => exact ended rfl
  | tick => exact ended rfl
  | demand task =>
    simp only [GpuArbiter.refuse]
    split_ifs
    · exact restoreOnDemand task _
    · exact ended rfl
  | whenIdle deadline =>
    simp only [GpuArbiter.refuse]
    split_ifs
    · exact ended rfl
    · exact idleBusy false deadline

theorem restoreDecision (call : RestoreCall) :
    Steady clear arbiter (arbiter.restoreDecision call) := by
  unfold GpuArbiter.restoreDecision
  split_ifs
  · exact refuse call .notImageMode
  · exact refuse call .pinned
  · exact refuse call .busy
  · exact refuse call .grace
  · exact refuse call .busy
  · exact waits rfl trivial

theorem decideOnWork (call : RestoreCall) (reply : Reply) :
    Steady clear arbiter (arbiter.decideOnWork call reply) := by
  unfold GpuArbiter.decideOnWork
  split
  · exact endRestore call
  · split_ifs
    · exact refuse call .busy
    · exact waits rfl trivial

theorem decideOnQueue (call : RestoreCall) (queue : QueueRead) :
    Steady clear arbiter (arbiter.decideOnQueue call queue) := by
  have idle : Steady clear arbiter
      (if 0 < arbiter.imageJobs then arbiter.refuse call .busy
        else if arbiter.state.pinned then arbiter.refuse call .pinned
        else arbiter.restoreLlmLocked call) := by
    split_ifs
    · exact refuse call .busy
    · exact refuse call .pinned
    · exact waits rfl trivial
  cases queue with
  | refused => exact idle
  | unknown => exact (refuse call .unreadable).after rfl
  | counts running pending =>
    simp only [GpuArbiter.decideOnQueue]
    by_cases busy : 0 < running + pending
    · rw [if_pos busy]
      exact (refuse call .busy).after rfl
    · rw [if_neg busy]
      exact idle

theorem restoreLlm (force : Bool) :
    Steady clear arbiter (arbiter.restoreLlm force) := by
  unfold GpuArbiter.restoreLlm
  split_ifs
  · exact ended rfl
  · exact ended rfl
  · exact waits rfl trivial
  · exact ended rfl
  · exact waits rfl trivial

theorem restoreUnlessWork (reply : Reply) :
    Steady clear arbiter (arbiter.restoreUnlessWork reply) := by
  unfold GpuArbiter.restoreUnlessWork
  split
  · exact ended rfl
  · split_ifs
    · exact ended rfl
    · exact waits rfl trivial

theorem restoreLlmWhenIdle (force : Bool) (maxWait : Nat) :
    Steady clear arbiter (arbiter.restoreLlmWhenIdle force maxWait) := by
  unfold GpuArbiter.restoreLlmWhenIdle
  split_ifs
  · exact ended rfl
  · exact ended rfl
  · exact idleCheck force _

theorem restoreTick : Steady clear arbiter arbiter.restoreTick := by
  unfold GpuArbiter.restoreTick
  split_ifs
  · exact ended rfl
  · exact ended rfl
  · exact waits rfl trivial
  · exact ended rfl

theorem holdForPrompt : Steady clear arbiter (arbiter.holdForPrompt, none) := by
  apply ended
  unfold GpuArbiter.holdForPrompt
  split_ifs <;> rfl

theorem releaseDemandLease (request : RequestId) :
    Steady clear arbiter (arbiter.releaseDemandLease request, none) := by
  apply ended
  unfold GpuArbiter.releaseDemandLease
  split <;> rfl

theorem wakeWaiter (request : RequestId) (task : DemandId) :
    Steady clear arbiter (arbiter.wakeWaiter request task, none) := by
  have released : Steady clear (arbiter.leaveDemandWait task) _ :=
    releaseDemandLease request
  apply ended
  unfold GpuArbiter.wakeWaiter
  dsimp only
  split_ifs
  · exact released.cache
  · rfl

end Steady

/-! ## The group cache follows the configs -/

/-- The cached groups are those of the configs. -/
def CacheOk (dir : SlotsDir) (arbiter : GpuArbiter) : Prop :=
  ∀ entry ∈ arbiter.groupCache, entry.2 = dir.group entry.1

theorem mem_dictSet {Value : Type} {entries : List (String × Value)}
    {key : String} {value : Value} {entry : String × Value}
    (found : entry ∈ dictSet entries key value) :
    entry = (key, value) ∨ entry ∈ entries := by
  unfold dictSet at found
  split_ifs at found
  · rw [mem_map] at found
    obtain ⟨other, listed, same⟩ := found
    split_ifs at same
    · exact Or.inl same.symm
    · exact Or.inr (same ▸ listed)
  · rw [mem_append, mem_singleton] at found
    exact found.symm

theorem mem_of_lookup {Value : Type} {entries : List (String × Value)}
    {key : String} {value : Value}
    (found : entries.lookup key = some value) : (key, value) ∈ entries := by
  obtain ⟨before, after, rfl, -⟩ := lookup_eq_some_iff.1 found
  simp

namespace CacheOk

variable {dir : SlotsDir} {arbiter : GpuArbiter}

theorem refresh (dir : SlotsDir) (arbiter : GpuArbiter) :
    CacheOk dir (arbiter.refreshGroupCache dir.configs) := by
  have folds : ∀ (configs : List SlotConfig)
      (cache : List (String × Option Group)),
      (∀ config ∈ configs, config ∈ dir.configs) →
      (∀ entry ∈ cache, entry.2 = dir.group entry.1) →
      ∀ entry ∈ configs.foldl (fun cache config =>
        dictSet cache config.name (gpuExclusiveGroup config)) cache,
        entry.2 = dir.group entry.1 := by
    intro configs
    induction configs with
    | nil => exact fun _ _ kept => kept
    | cons config rest ih =>
      intro cache listed kept
      apply ih
      · exact fun other later => listed other (mem_cons_of_mem _ later)
      · intro entry found
        rcases mem_dictSet found with rfl | before
        · simp [SlotsDir.group,
            dir.config_of_mem (listed config mem_cons_self)]
        · exact kept entry before
  apply folds
  · exact fun _ listed => listed
  · intro entry found
    cases found

theorem slotGroup (ok : CacheOk dir arbiter) (slot : String) :
    CacheOk dir (arbiter.slotGroup slot (dir.config slot)).1 := by
  unfold GpuArbiter.slotGroup
  split
  · exact ok
  · split
    · rename_i config read
      intro entry found
      rcases mem_dictSet found with rfl | before
      · simp [SlotsDir.group, read]
      · exact ok entry before
    · exact ok

theorem answer (ok : CacheOk dir arbiter) {slot : String} {group : Group}
    (configured : dir.group slot = some group) :
    (arbiter.slotGroup slot (dir.config slot)).2 = some group := by
  unfold GpuArbiter.slotGroup
  split
  · rename_i cached found
    have listed : (slot, cached) ∈ arbiter.groupCache :=
      mem_of_lookup found
    exact (ok _ listed).trans configured
  · split
    · rename_i config read
      simpa [SlotsDir.group, read] using configured
    · rename_i missing
      simp [SlotsDir.group, missing] at configured

end CacheOk

/-- The cache follows the configs, and the slots ahead are `clear`. -/
structure Follows (dir : SlotsDir) (clear : String → Prop) (turn : Turn) :
    Prop where
  cache : CacheOk dir turn.1
  covers : ∀ pc, turn.2 = some pc → Covers clear pc

theorem Steady.follows {dir : SlotsDir} {clear : String → Prop}
    {arbiter : GpuArbiter} {turn : Turn} (steady : Steady clear arbiter turn)
    (ok : CacheOk dir arbiter) : Follows dir clear turn where
  cache := by
    intro entry found
    rw [steady.cache] at found
    exact ok entry found
  covers := steady.covers

namespace Follows

variable {dir : SlotsDir} {clear : String → Prop} {arbiter : GpuArbiter}

theorem waits {pc : Pc} (ok : CacheOk dir arbiter)
    (covers : Covers clear pc) : Follows dir clear (arbiter, some pc) :=
  (Steady.waits rfl covers).follows ok

theorem finishUnloadsFrom (ok : CacheOk dir arbiter) (call : EnsureCall)
    (loaded saved : List String) (reply : Reply)
    (clears : ∀ slot ∈ loaded, clear slot) :
    Follows dir clear
      (arbiter.finishUnloadsFrom call loaded saved reply) := by
  unfold GpuArbiter.finishUnloadsFrom
  split
  · exact (Steady.endEnsure call .raised).follows ok
  · exact (Steady.awaitLoads call .already loaded saved _ _ reply
      clears).follows ok

theorem ensureImgLocked (ok : CacheOk dir arbiter) (call : EnsureCall)
    (reply : Reply)
    (clears : arbiter.state.mode = .img →
      ∀ slot ∈ arbiter.state.savedLlmSlots,
        arbiter.onGpu slot = true → clear slot) :
    Follows dir clear (arbiter.ensureImgLocked call reply) := by
  unfold GpuArbiter.ensureImgLocked
  dsimp only
  split_ifs with image pins written
  · refine ((Steady.finishUnloads call ?_).after rfl).follows ok
    exact clears image
  · exact ((Steady.endEnsure call .raised).after rfl).follows ok
  · refine ((Steady.finishUnloads call ?_).after rfl).follows ok
    exact clears image
  · exact ((Steady.letServedRequestsDispatch call _).after rfl).follows ok

section Reading

variable {reply : Reply} (reads : ∀ configs, reply.configs = some configs →
  configs = dir.configs)

include reads

theorem switchToImg (ok : CacheOk dir arbiter) (call : EnsureCall)
    (drained : ∀ slot, (arbiter.slots slot).inFlight = 0 → clear slot) :
    Follows dir clear (arbiter.switchToImg call reply) := by
  unfold GpuArbiter.switchToImg
  split
  · exact (Steady.endEnsure call .raised).follows ok
  · rename_i configs found
    obtain rfl := reads configs found
    have refreshed := CacheOk.refresh dir arbiter
    dsimp only
    split
    · exact (Steady.endEnsure call .imgSlotMissing).follows refreshed
    · split_ifs
      · exact (Steady.endEnsure call .raised).follows refreshed
      · refine ((Steady.drain call _ _ _ reply ?_ ?_).after rfl).follows
          refreshed
        · exact fun idle slot listed => drained slot (idle slot listed)
        · intro late
          exact absurd late (Nat.not_le.2 (Nat.lt_add_of_pos_right
            (by decide)))
      · exact ((Steady.endEnsure call .raised).after rfl).follows refreshed

theorem reviveImg (ok : CacheOk dir arbiter) (call : EnsureCall) :
    Follows dir clear (arbiter.reviveImg call reply) := by
  unfold GpuArbiter.reviveImg
  split
  · exact (Steady.endEnsure call .raised).follows ok
  · rename_i configs found
    obtain rfl := reads configs found
    have refreshed := CacheOk.refresh dir arbiter
    dsimp only
    split
    · exact (Steady.endEnsure call .returned).follows refreshed
    · split_ifs
      · exact (Steady.endEnsure call .returned).follows refreshed
      · exact waits refreshed trivial

theorem freeComfyui (ok : CacheOk dir arbiter) (call : RestoreCall) :
    Follows dir clear (arbiter.freeComfyui call reply) := by
  unfold GpuArbiter.freeComfyui
  split
  · exact (Steady.endRestore call).follows ok
  · rename_i configs found
    obtain rfl := reads configs found
    exact waits (CacheOk.refresh dir arbiter) trivial

end Reading

theorem makeRoomForLlm (ok : CacheOk dir arbiter) (request : RequestId)
    (slot : String) (maxWait : Nat) :
    Follows dir clear
      (arbiter.makeRoomForLlm request slot maxWait (dir.config slot)) := by
  have looked := ok.slotGroup slot
  have joined : CacheOk dir
      (arbiter.slotGroup slot (dir.config slot)).1.joinDemand.1 := by
    unfold GpuArbiter.joinDemand
    split
    · split_ifs <;> exact looked
    · exact looked
  unfold GpuArbiter.makeRoomForLlm
  dsimp only
  split_ifs
  · exact (Steady.ended rfl).follows ok
  · exact (Steady.ended rfl).follows looked
  · exact waits joined trivial

/--
A task's step keeps the cache, and the slots it has yet to unload are clear:
those of the drain, those which are ahead already, and those the
already-in-image-mode branch finds.
-/
theorem resume (clear : String → Prop) {pc : Pc} {reply : Reply}
    {turn : Turn} (ok : CacheOk dir arbiter)
    (resumed : arbiter.resume pc (dir.answers pc reply) = some turn)
    (covers : Covers clear pc)
    (drained : ∀ slot, (arbiter.slots slot).inFlight = 0 → clear slot)
    (expired : ∀ call saved img deadline,
      pc = .drain call saved img deadline → deadline ≤ arbiter.now →
        ∀ slot, clear slot)
    (finishes : ∀ call, pc = .ensureLock call → arbiter.state.mode = .img →
      ∀ slot ∈ arbiter.state.savedLlmSlots,
        arbiter.onGpu slot = true → clear slot) :
    Follows dir clear turn := by
  have reads : ∀ configs, (dir.answers pc reply).configs = some configs →
      configs = dir.configs := by
    intro configs found
    obtain ⟨-, -, same⟩ := Option.map_eq_some_iff.1 found
    exact same.symm
  cases pc with
  | ensureLock call =>
    cases resumed
    exact ensureImgLocked ok call _ (finishes call rfl)
  | letServed call deadline =>
    cases resumed
    exact (Steady.letServedRequestsDispatch call deadline).follows ok
  | switchConfigs call timedOut =>
    cases resumed
    exact switchToImg reads ok call drained
  | drain call saved img deadline =>
    cases resumed
    refine (Steady.drain call saved img deadline _ ?_ ?_).follows ok
    · exact fun idle slot listed => drained slot (idle slot listed)
    · exact fun late slot _ =>
        expired call saved img deadline rfl late slot
  | awaitLoads call branch slots saved img deadline =>
    cases resumed
    exact (Steady.awaitLoads call branch slots saved img deadline _
      covers).follows ok
  | unload call branch slot rest saved img =>
    cases resumed
    exact (Steady.unloadReturned call branch slot rest saved img _
      covers).follows ok
  | finishConfigs call loaded saved =>
    cases resumed
    exact finishUnloadsFrom ok call loaded saved _ covers
  | reviveConfigs call =>
    cases resumed
    exact reviveImg reads ok call
  | loadImg call img saved =>
    cases resumed
    exact (Steady.loadImgReturned call img saved _).follows ok
  | imgReady call img saved deadline =>
    cases resumed
    exact (Steady.pollImg call img saved deadline _).follows ok
  | rollbackUnload call img slots =>
    cases resumed
    exact ((Steady.rollbackLoads call _ slots).after rfl).follows ok
  | rollbackLoad call slot rest =>
    cases resumed
    exact ((Steady.rollbackLoads call _ rest).after rfl).follows ok
  | rendering job switched =>
    cases resumed
    exact (Steady.ended rfl).follows ok
  | restoreLock force =>
    cases resumed
    exact (Steady.restoreLlm force).follows ok
  | restoreWork =>
    cases resumed
    exact (Steady.restoreUnlessWork _).follows ok
  | decisionLock call =>
    cases resumed
    exact (Steady.restoreDecision call).follows ok
  | decisionWork call =>
    cases resumed
    exact (Steady.decideOnWork call _).follows ok
  | decisionQueue call =>
    cases resumed
    exact (Steady.decideOnQueue call _).follows ok
  | restoreConfigs call =>
    cases resumed
    exact freeComfyui reads ok call
  | restoreFree call saved =>
    cases resumed
    exact (Steady.restoreLoads call _ saved).follows ok
  | restoreLoad call slot rest =>
    cases resumed
    exact ((Steady.restoreLoads call _ rest).after rfl).follows ok
  | idleStart force maxWait =>
    cases resumed
    exact (Steady.restoreLlmWhenIdle force maxWait).follows ok
  | idleWork force deadline =>
    cases resumed
    exact (Steady.idleOnWork force deadline _).follows ok
  | idleQueue force deadline =>
    cases resumed
    exact (Steady.idleOnQueue force deadline _).follows ok
  | idleSleep force deadline =>
    cases resumed
    exact (Steady.idleCheck force deadline).follows ok
  | tick =>
    cases resumed
    exact Steady.restoreTick.follows ok
  | demandLoop task recheckAt =>
    cases resumed
    exact (Steady.restoreOnDemand task recheckAt).follows ok
  | holdLock =>
    cases resumed
    exact Steady.holdForPrompt.follows ok
  | makeRoom request slot maxWait =>
    cases resumed
    exact makeRoomForLlm ok request slot maxWait
  | waiting request task deadline =>
    simp only [GpuArbiter.resume, Option.ite_none_right_eq_some] at resumed
    obtain ⟨-, woken⟩ := resumed
    cases woken
    exact (Steady.wakeWaiter request task).follows ok

end Follows

namespace CacheOk

variable {dir : SlotsDir} {arbiter after : GpuArbiter}

section

variable (ok : CacheOk dir arbiter)
include ok

theorem of_eq
    (cache : after.groupCache = arbiter.groupCache) : CacheOk dir after := by
  intro entry found
  rw [cache] at found
  exact ok entry found

theorem start {pc : Pc}
    (begun : arbiter.start pc = some after) : CacheOk dir after := by
  apply ok.of_eq
  unfold GpuArbiter.start at begun
  split at begun
  case h_2 | h_8 =>
    obtain ⟨-, begun⟩ := Option.ite_none_right_eq_some.1 begun
    cases begun
    rfl
  all_goals
    cases begun
    try rfl

theorem abandon {pc : Pc}
    (left : arbiter.abandon pc = some after) : CacheOk dir after := by
  apply ok.of_eq
  simp only [GpuArbiter.abandon, Option.ite_none_left_eq_some] at left
  obtain ⟨-, left⟩ := left
  split at left <;> cases left <;> split_ifs <;> rfl

theorem guardDispatch (slot : String) :
    CacheOk dir (arbiter.guardDispatch slot (dir.config slot)).1 := by
  unfold GpuArbiter.guardDispatch
  dsimp only
  split_ifs <;> exact ok.slotGroup slot

theorem dispatch (request : RequestId) (slot : String) :
    CacheOk dir (arbiter.dispatch request slot (dir.config slot)) := by
  have guarded := ok.guardDispatch slot
  have released : Steady (fun _ => True)
      (arbiter.guardDispatch slot (dir.config slot)).1 _ :=
    Steady.releaseDemandLease request
  unfold GpuArbiter.dispatch
  dsimp only
  split
  · exact guarded.of_eq released.cache
  · exact guarded.of_eq released.cache

theorem refuses {slot : String} (image : arbiter.state.mode = .img)
    (llm : dir.group slot = some .llm) :
    (arbiter.guardDispatch slot (dir.config slot)).2 =
      .error (.gpuImageMode slot retryAfterFloor) := by
  unfold GpuArbiter.guardDispatch
  dsimp only
  rw [if_pos ⟨image, ok.answer llm⟩]

end

end CacheOk

end Hal0.Slots.ImageDrain
